import Gamemaster.Http.Server
import Gamemaster.Proofs.Serial
import Gamemaster.Proofs.Store.Journal

namespace Gamemaster

namespace Http

/-- A response tells what the service has answered. -/
def Response.of (status : Nat) (encode : α → Json) : Except Refusal α → Response
  | .ok answer => .ofJson status (encode answer)
  | .error r => .refused r

theorem run_respond (status : Nat) (encode : α → Json) (service : Service α) (s : Store) :
    (respond status encode service).run s =
      { service.run.run s with answer := .of status encode (service.run.run s).answer } := by
  change (service.run.bind _).run s = _
  rw [Task.run_bind]
  cases (service.run.run s).answer <;> simp [Response.of, Task.run, pure]

theorem serve_events {q : Request} {id campaignId : String} {limit : Nat}
    (hmethod : q.method = "GET") (hpath : Route.ofPath? q.target.path = some (.page (.events id)))
    (hid : percentDecode? id.toList = some campaignId)
    (hlimit : limitOf? q.target.query = some limit) :
    serve q = respond Response.ok (fun events => .list (events.map Event.toJson))
      (Service.recentEvents campaignId limit) := by
  simp [serve, hmethod, hpath, Page.read, hid, hlimit]

end Http

namespace Store

def publishedIn (campaignId : String) (rs : List Request) (s : Store) : List Event :=
  (s.publishedBy rs).filter fun e => e.campaignId = some campaignId

end Store

theorem Service.run_recentEvents {s : Store} (hs : s.Sound) (campaignId : String) (limit : Nat) :
    (Service.recentEvents campaignId limit).run.run s =
      ⟨s.recent campaignId (min limit maxEvents), s, []⟩ := by
  rw [Service.recentEvents, Service.run_query, hs.ask]

/-- What the pages of a campaign show once some requests have been served: the newest of its
events, first the newest of all, as many as were asked for and no more than 200. -/
structure PagesEvents (rs : List Request) (campaignId : String) (page : Nat → List Event)
    (s : Store) : Prop where
  newest : ∀ limit, (page limit).reverse <:+ s.publishedIn campaignId rs
  full : ∀ limit, (page limit).length = min limit (min 200 (s.publishedIn campaignId rs).length)
  widens : ∀ limit limit', limit ≤ limit' → page limit <+: page limit'
  answered : ∀ limit, (Request.recentEvents campaignId limit).outcome (s.afterAll rs) =
    ⟨.ok (.events (page limit)), s.afterAll rs, []⟩
  /-- The path and the query of a request for a page may be encoded in any way. -/
  shown : ∀ limit q id, q.method = "GET" →
    Http.Route.ofPath? q.target.path = some (.page (.events id)) →
    Http.percentDecode? id.toList = some campaignId → Http.limitOf? q.target.query = some limit →
    (Http.serve q).run (s.afterAll rs) =
      ⟨.ofJson 200 (.list ((page limit).map Event.toJson)), s.afterAll rs, []⟩
  /-- The stamps of a clock that does not go back put the events into this order, in whatever
  order the rows lie. -/
  stamped : ∀ limit (clock : Nat → Instant) rows, (∀ i j, i ≤ j → clock i ≤ clock j) →
    rows.Perm (EventRow.record clock (s.publishedBy rs)) →
    EventRow.page campaignId (min limit maxEvents) rows = page limit

/-- Requests that are served one after another leave pages of just the events of each campaign. -/
theorem pagesEvents_after (onFile : Bool) (rs : List Request) (campaignId : String) :
    ∃ page, PagesEvents rs campaignId page (.empty onFile) := by
  have hs := Store.sound_afterAll (Store.sound_empty onFile) rs
  let own := Store.publishedIn campaignId rs (.empty onFile)
  let page := fun limit => own.reverse.take (min limit maxEvents)
  have hlog :
      ((Store.empty onFile).afterAll rs).log = some ((Store.empty onFile).publishedBy rs) :=
    Store.log_afterAll rs (.empty onFile)
  have hrun :
      ∀ limit,
        (Service.recentEvents campaignId limit).run.run ((Store.empty onFile).afterAll rs) =
      ⟨.ok (page limit), (Store.empty onFile).afterAll rs, []⟩ := by
    intro limit
    rw [Service.run_recentEvents hs]
    simp only [Store.recent, hlog, page, own, Store.publishedIn, List.filter_reverse]
  refine ⟨page, fun limit => ?_, fun limit => ?_, fun limit limit' hle => ?_, fun limit => ?_,
    fun limit q id hmethod hpath hid hlimit => ?_, fun limit clock rows hclock hrows => ?_⟩
  · rw [← List.reverse_prefix, List.reverse_reverse]
    exact List.take_prefix _ _
  · rw [List.length_take, List.length_reverse, Nat.min_assoc]
    rfl
  · exact List.take_prefix_take_left (by omega)
  · rw [Request.outcome, Request.serve, Service.run_map_answer, hrun]
    rfl
  · rw [Http.serve_events hmethod hpath hid hlimit, Http.run_respond, hrun]
    rfl
  · rw [EventRow.page_of_perm hclock hrows, List.filter_reverse]
    rfl

def mixedTables : List Request :=
  [some "camp 1", some "other", none, some "camp 1", some "camp 1", some "other"].map
    fun campaignId =>
    .createTable ⟨campaignId, "Loot", "1d6", none, [⟨1, 6, .text "gold"⟩]⟩

def lootEvent (campaignId : Option String) (id : String) : Event :=
  ⟨campaignId, "Random table created: Loot - 1 entries", .tableCreated id "1d6" 1⟩

/-- The page of two events shows the fourth table and the fifth, the newer one first. -/
theorem pagesEvents_mixedTables :
    ∃ page, PagesEvents mixedTables "camp 1" page (.empty false) ∧
      page 2 = [lootEvent (some "camp 1") "table-5", lootEvent (some "camp 1") "table-4"] ∧
      ∃ q, Http.Request.of? "GET" "/events/camp%201?limit=2" none "" = some q ∧
        ((Http.serve q).run ((Store.empty false).afterAll mixedTables)).answer =
          .ofJson 200 (.list ((page 2).map Event.toJson)) := by
  obtain ⟨page, hpages⟩ := pagesEvents_after false mixedTables "camp 1"
  have hanswer :
      ((Request.recentEvents "camp 1" 2).outcome
        ((Store.empty false).afterAll mixedTables)).answer =
      .ok (.events
        [lootEvent (some "camp 1") "table-5", lootEvent (some "camp 1") "table-4"]) := by cbv
  let q : Http.Request := ⟨"GET", ⟨"/events/camp%201", some "limit=2"⟩, none, ""⟩
  refine ⟨page, hpages, ?_, q, by cbv, ?_⟩
  · rw [hpages.answered 2] at hanswer
    exact Answer.events.inj (Except.ok.inj hanswer)
  · have hpath :
        Http.Route.ofPath? "/events/camp%201" = some (.page (.events "camp%201")) := by decide
    have hid : Http.percentDecode? "camp%201".toList = some "camp 1" := by decide +kernel
    have hlimit : Http.limitOf? (some "limit=2") = some 2 := by decide +kernel
    rw [hpages.shown 2 q "camp%201" rfl hpath hid hlimit]

end Gamemaster
