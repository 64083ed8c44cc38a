import Gamemaster.Roster

namespace Gamemaster

structure Encounter where
  id : String
  campaignId : String
  name : String
  difficulty : String
  notes : Option String
  roster : List Member

end Gamemaster
