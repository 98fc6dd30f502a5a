import Mathlib.Data.List.TakeDrop
import Mathlib.Data.List.TakeWhile
import RouteModule.Template.Expr.Reader
import RouteModule.Template.Meaning

/-!
What plain paths stand for: the name of a variable, and the name of a variable with one key behind
a point. In a round of a loop such a path means the value of the round or a member of it, and every
other path means there what it means outside.
-/

namespace RouteModule.Template

/-- A text that is read as one name: it is not empty, and consists of letters, digits and
underscores. -/
def IsName (t : Text) : Prop := t ≠ [] ∧ ∀ c ∈ t, isNameChar c

instance (t : Text) : Decidable (IsName t) :=
  decidable_of_iff (t ≠ [] ∧ t.all isNameChar) (and_congr_right' List.all_eq_true)

/-- A literal is a name if its characters form one. -/
theorem isName_ofList {cs : List Char} (h : IsName cs) : IsName (String.ofList cs).toList := by
  rwa [String.toList_ofList]

namespace IsName

theorem ne_of_mem {t : Text} (h : IsName t) {c d : Char} (hc : c ∈ t) (hd : isNameChar d = false) :
    c ≠ d := by
  rintro rfl
  have := h.2 c hc
  simp [hd] at this

theorem contains_eq_false {t : Text} (h : IsName t) {d : Char} (hd : isNameChar d = false) :
    t.contains d = false := by
  rw [← Bool.not_eq_true, List.contains_iff_mem]
  intro hm
  exact h.ne_of_mem hm hd rfl

/-- A name goes on up to a point. -/
theorem ne_point {t : Text} (h : IsName t) : ∀ c ∈ t, decide (c ≠ '.') = true := by
  intro c hc
  simpa using h.ne_of_mem hc (by decide)

end IsName

namespace Path

theorem split_name {t : Text} (h : IsName t) : split t = (t, none) := by
  have hp := h.ne_point
  have htake : t.takeWhile (· ≠ '.') = t := List.takeWhile_eq_self_iff.2 hp
  have hdrop : t.dropWhile (· ≠ '.') = [] := List.dropWhile_eq_nil_iff.2 hp
  simp only [split, List.span_eq_takeWhile_dropWhile, htake, hdrop]

theorem split_member {root : Text} (h : IsName root) (key : Text) :
    split (root ++ '.' :: key) = (root, some key) := by
  have hp := h.ne_point
  have htake : (root ++ '.' :: key).takeWhile (· ≠ '.') = root := by
    rw [List.takeWhile_append_of_pos hp]
    simp
  have hdrop : (root ++ '.' :: key).dropWhile (· ≠ '.') = '.' :: key := by
    rw [List.dropWhile_append_of_pos hp]
    simp
  simp only [split, List.span_eq_takeWhile_dropWhile, htake, hdrop]

/-- No character of a name ends a segment. -/
theorem segmentEnd_name {t : Text} (h : ∀ c ∈ t, isNameChar c) (lead count : Nat) (q : Quoting) :
    ∃ r, segmentEnd lead count q t = (lead, none, r) := by
  induction t generalizing count q with
  | nil => exact ⟨q, rfl⟩
  | cons c t ih =>
    have hc : isNameChar c := h c List.mem_cons_self
    have hne : ∀ d, isNameChar d = false → c ≠ d := by
      rintro d hd rfl
      simp [hd] at hc
    have hnext : q.next c = ({ q with escaped := c = '\\' }, false) := by
      simp [Quoting.next, hne '"' (by decide), hne '\'' (by decide), hne '.' (by decide)]
    obtain ⟨r, hr⟩ := ih (fun d hd => h d (List.mem_cons_of_mem c hd)) (count + 1)
      { q with escaped := c = '\\' }
    exact ⟨r, by simpa [segmentEnd, hnext] using hr⟩

theorem unescaped_name {t : Text} (h : ∀ c ∈ t, isNameChar c) : unescaped t = t := by
  induction t with
  | nil => rfl
  | cons c t ih =>
    have hc : c ≠ '~' := by
      rintro rfl
      exact absurd (h '~' List.mem_cons_self) (by decide)
    rw [unescaped]
    · rw [ih fun d hd => h d (List.mem_cons_of_mem c hd)]
    · rintro t rfl
      exact absurd rfl hc
    · rintro t rfl
      exact absurd rfl hc

theorem segments_name {t : Text} (h : IsName t) : segments t = [t] := by
  obtain ⟨r, hr⟩ := segmentEnd_name h.2 0 0 ⟨false, false, false⟩
  have hdrop : dropBytes 0 t = t := by cases t <;> rfl
  simp [segments, segmentsWithin, hr, hdrop, h.1, unescaped_name h.2]

@[simp] theorem into_none (v : Json) : into none v = some v := rfl

theorem into_name {key : Text} (h : IsName key) (v : Json) : into (some key) v = part? key v := by
  simp only [into, Option.map_some, Option.getD_some, segments_name h, follow]
  cases part? key v <;> rfl

/-- Of several members of one name the last one counts. -/
theorem part?_ofMembers (key : Text) (members : List (Text × Json)) :
    part? key (.ofMembers members) = members.reverse.lookup key := by
  simp only [Json.ofMembers, part?, Table.lookup_ofList]

/-- The members of a record are found by their literal names. -/
theorem part?_record (key : String) (members : List (String × Json)) :
    part? key.toList (.record members) = members.reverse.lookup key := by
  rw [Json.record, part?_ofMembers, ← List.map_reverse]
  induction members.reverse with
  | nil => rfl
  | cons m rest ih =>
    obtain ⟨name, v⟩ := m
    have hkey : (key.toList == name.toList) = (key == name) := by
      rw [Bool.eq_iff_iff, beq_iff_eq, beq_iff_eq, String.toList_inj]
    simp only [List.map_cons, List.lookup_cons, hkey, ih]

end Path

namespace Round

theorem find?_name (r : Round) {name : Text} (h : IsName name) (hloop : name ≠ "loop".toList) :
    r.find? name =
      if r.keyName = some name then some (.text r.key)
      else if name = r.valueName then some r.value else none := by
  simp only [find?, Path.split_name h, hloop, if_false, Path.into_none]

theorem find?_member (r : Round) {root key : Text} (h : IsName root)
    (hloop : root ≠ "loop".toList) (hkey : r.keyName ≠ some (root ++ '.' :: key)) :
    r.find? (root ++ '.' :: key) =
      if root = r.valueName then Path.into (some key) r.value else none := by
  simp only [find?, Path.split_member h, hloop, hkey, if_false]

/-- The name of a key is no path into a value. -/
theorem keyName_ne_member {r : Round} (h : ∀ name ∈ r.keyName, IsName name) (root key : Text) :
    r.keyName ≠ some (root ++ '.' :: key) := by
  intro he
  have hname := h _ he
  exact hname.ne_of_mem (c := '.') (by simp) (by decide) rfl

end Round

namespace Scope

theorem resolve?_plain (s : Scope) (fuel : Nat) {path : Text} (h : path.contains '[' = false) :
    s.resolve? (fuel + 1) path = s.find? path := by
  rw [resolve?, h]
  rfl

theorem lookup?_name (s : Scope) {name : Text} (h : IsName name) :
    s.lookup? name = s.find? name :=
  s.resolve?_plain _ (h.contains_eq_false (by decide))

theorem lookup?_member (s : Scope) {root key : Text} (hr : IsName root) (hk : IsName key) :
    s.lookup? (root ++ '.' :: key) = s.find? (root ++ '.' :: key) := by
  apply s.resolve?_plain
  rw [List.contains_append, List.contains_cons, hr.contains_eq_false (by decide),
    hk.contains_eq_false (by decide)]
  decide

/-- A round of a loop is asked before all that is around it. -/
theorem find?_enter (s : Scope) (r : Round) (path : Text) :
    (s.enter r).find? path = (r.find? path).or (s.find? path) := by
  have hframe : (⟨[], some r⟩ : Frame).find? path = r.find? path := by
    simp [Frame.find?, entry]
  simp only [find?, enter, List.findSome?_cons, hframe]
  cases r.find? path <;> rfl

/-- Outside of all loops there are the values of the context. -/
theorem find?_ofContext (context : List (Text × Json)) (path : Text) :
    (ofContext context).find? path = entry context path := by
  simp [find?, ofContext, Frame.find?, entry]

/-- The value of a round hides nothing but what has its name. -/
theorem find?_enter_other (s : Scope) {r : Round} {path : Text} (h : r.find? path = none) :
    (s.enter r).find? path = s.find? path := by
  rw [find?_enter, h, Option.none_or]

theorem find?_enter_of_some (s : Scope) {r : Round} {path : Text} {v : Json}
    (h : r.find? path = some v) : (s.enter r).find? path = some v := by
  rw [find?_enter, h, Option.some_or]

end Scope

end RouteModule.Template
