import Gamemaster.Proofs.Play.Uninterrupted
import Gamemaster.Proofs.World.Overwritten
import Gamemaster.Proofs.Serial

namespace Gamemaster

namespace Store

variable {s : Store} {row : CombatRow}

end Store

namespace Service

variable {s : Store} {row : CombatRow}

end Service

end Gamemaster
