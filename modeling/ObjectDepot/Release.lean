/-!
The name and the version under which the storage layer announces itself.
-/

namespace ObjectDepot

structure Release where
  name : String
  version : String
  deriving DecidableEq, Repr

def Release.storage : Release := ⟨"strata-persistence", "0.1.4"⟩

end ObjectDepot
