import Gamemaster.Text.Blank
import Gamemaster.Number.Literal
import Gamemaster.Number.Double.Decimal
import Gamemaster.Number.Double.Shortest
import Gamemaster.Json.Reader
import Gamemaster.Json.Printer
import Gamemaster.Json.Record
import Gamemaster.Dice.Narrative
import Gamemaster.Refusal
import Gamemaster.RandomTable
import Gamemaster.Play.Combat
import Gamemaster.Play.Campaign
import Gamemaster.Store.Tamper
import Gamemaster.Wire.Request
import Gamemaster.Wire.Answer
import Gamemaster.Http.MediaType
import Gamemaster.Http.Target
import Gamemaster.Http.Response
import Gamemaster.Http.Route
import Gamemaster.Http.Server
import Gamemaster.CommandLine
import Gamemaster.Main
import Gamemaster.Toml.Document
import Gamemaster.Toml.Quoted
import Gamemaster.Toml.Reader
import Gamemaster.Settings
import Gamemaster.Proofs.World
import Gamemaster.Proofs.World.Run
import Gamemaster.Proofs.Combatant.Updates
import Gamemaster.Proofs.Combatant.Bounds
import Gamemaster.Proofs.Combatant.Order
import Gamemaster.Proofs.Combat.Versions
import Gamemaster.Proofs.Combat.Schedule
import Gamemaster.Proofs.Dice.Draws
import Gamemaster.Proofs.Dice.Range
import Gamemaster.Proofs.Combat.Initiative
import Gamemaster.Proofs.World.Audit
import Gamemaster.Proofs.Play.Logged
import Gamemaster.Proofs.Serial
import Gamemaster.Proofs.Serial.Audit
import Gamemaster.Proofs.World.Refused
import Gamemaster.Proofs.Combat.Opening
import Gamemaster.Proofs.World.Independence
import Gamemaster.Proofs.Dice.Exploding
import Gamemaster.Proofs.World.Definitions
import Gamemaster.Proofs.Combatant.Contention
import Gamemaster.Proofs.Dice.Diagnosis
import Gamemaster.Proofs.Dice.Pair
import Gamemaster.Proofs.Dice.Accounts
import Gamemaster.Proofs.Dice.Composition
import Gamemaster.Proofs.Dice.Pieces
import Gamemaster.Proofs.Dice.Breakdown
import Gamemaster.Proofs.Combatant.Requests
import Gamemaster.Proofs.Combatant.HitPoints
import Gamemaster.Proofs.Combatant.Conditions
import Gamemaster.Proofs.Combatant.Confinement
import Gamemaster.Proofs.World.Tables
import Gamemaster.Proofs.Serial.Pages
import Gamemaster.Proofs.Combat.Recovery
import Gamemaster.Proofs.Summary
import Gamemaster.Proofs.StatBlock
import Gamemaster.Proofs.Combat.Declared
import Gamemaster.Proofs.World.Shared
import Gamemaster.Proofs.Combatant.Revisions
import Gamemaster.Proofs.Integers
