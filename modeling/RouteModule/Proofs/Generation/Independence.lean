import RouteModule.Proofs.Generation.Delivery

/-!
Generators that do not touch each other. Where two calls write different files and neither takes its
template from the file that the other writes, the order in which they are made makes no difference:
what one leaves behind, the other does not notice.
-/

namespace RouteModule

namespace FileSystem

variable {fs gs hs : FileSystem} {dir : Location} {path other : Text} {content new : Bytes}

/-- A path leads to a location, whether or not anything is there. -/
def LeadsTo (fs : FileSystem) (dir : Location) (path : Text) (l : Location) : Prop :=
  ∃ place b, fs.resolve false dir path = .ok (place, b) ∧ place.location = l

/-- Writing puts the content where the path leads, unless that is a directory. -/
theorem write_eq_ok_iff :
    fs.write dir path content = .ok gs ↔
      ∃ place, fs.resolve false dir path = .ok (place, false) ∧ (∀ m, place ≠ .directory m) ∧
        gs = fs.put place.location (.file content) := by
  constructor
  · intro h
    obtain ⟨place, hresolve, hplace, -, hput⟩ := write_eq_ok h
    exact ⟨place, hresolve, hplace, hput⟩
  · rintro ⟨place, hresolve, hplace, rfl⟩
    unfold write
    rw [resolve_any hresolve true]
    cases place with
    | directory m => exact absurd rfl (hplace m)
    | absent m => rfl
    | file m old => rfl

end FileSystem

namespace Call

variable {c d : Call} {cwd : Text} {dir : Location} {fs gs hs : FileSystem} {v w : Bool}

/-- What a call that ends well has written, whether or not that was there already. -/
theorem run_eq_ok_iff_write :
    (c.program cwd).run dir fs = (.ok w, gs) ↔
      ∃ t content,
        (fs.kind dir c.generator.options.routesDir = .ok .directory ∧
          RoutesFile.checkName c.generator.options = .ok ()) ∧
        c.load.run dir fs = (.ok t, fs) ∧ c.generator.content cwd t = .ok content ∧
        fs.write dir c.target (Text.toBytes content) = .ok gs ∧
        (w = false ↔ c.generator.options.noWriteIfUnchanged = true ∧
          fs.read dir c.target = .ok (Text.toBytes content)) := by
  simp only [run_eq_ok_iff, RoutesFile.run_write_eq_ok_iff]

end Call

end RouteModule
