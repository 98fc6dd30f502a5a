import Mathlib.Data.List.TakeDrop
import Mathlib.Data.List.TakeWhile
import RouteModule.CommandLine

/-!
What a list of arguments says. A flag is its name behind two dashes, and its value stands behind it or
is attached to it. A list gives flags in any order, each at most once; the reader accepts such lists
and no others, unless it is asked for help.
-/

namespace RouteModule

namespace Draft

variable {ι : Type} [Fields ι] {given draft : Draft ι} {i : ι}

/-- What is given, and otherwise what was there. -/
def onto (given draft : Draft ι) : Draft ι := fun i => (given i).or (draft i)

@[simp] theorem empty_onto (draft : Draft ι) : Draft.empty.onto draft = draft := rfl

@[simp] theorem onto_empty (given : Draft ι) : given.onto Draft.empty = given := by
  funext i
  simp [onto, empty]

/-- Nothing is given that is there already. -/
def Apart (given draft : Draft ι) : Prop := ∀ i, given i ≠ none → draft i = none

theorem apart_empty (given : Draft ι) : given.Apart Draft.empty := fun _ _ => rfl

variable [DecidableEq ι]

/-- It makes no difference which of the two has a field that only one of them has. -/
theorem put_onto (v : Fields.Value i) (h : given i = none) :
    (given.put i v).onto draft = given.onto (draft.put i v) := by
  funext j
  by_cases hj : j = i
  · subst hj
    simp [onto, h]
  · simp [onto, hj]

theorem apart_put_iff {v : Fields.Value i} (h : given i = none) :
    (given.put i v).Apart draft ↔ draft i = none ∧ given.Apart (draft.put i v) := by
  constructor
  · intro hapart
    refine ⟨hapart i (by simp), fun j hj => ?_⟩
    have hne : j ≠ i := fun he => hj (he ▸ h)
    rw [put_other _ _ hne]
    exact hapart j (by rwa [put_other _ _ hne])
  · rintro ⟨hi, hapart⟩ j hj
    by_cases hji : j = i
    · rw [hji, hi]
    · rw [put_other _ _ hji] at hj
      have hdraft := hapart j hj
      rwa [put_other _ _ hji] at hdraft

/-- What is put is not given otherwise. -/
theorem free_of_apart_put {v : Fields.Value i} (h : given.Apart (draft.put i v)) :
    given i = none := by
  by_contra hi
  have hnone := h i hi
  rw [put_same] at hnone
  cases hnone

end Draft

namespace CommandLine

/-- A flag as it is written, perhaps with a value attached. -/
def Flag.written (f : Flag) : Option Text → Text
  | none => dashes ++ (Fields.name f).toList
  | some value => dashes ++ ((Fields.name f).toList ++ '=' :: value)

/-- A list of arguments gives flags, each once. A value that stands on its own does not look like a
flag, and two dashes may end the list. -/
inductive Gives : List Text → Draft Flag → Prop where
  | nothing : Gives [] Draft.empty
  | ended : Gives [dashes] Draft.empty
  | switch {rest : List Text} {given : Draft Flag} (hnew : given .esm = none)
    (h : Gives rest given) : Gives (Flag.esm.written none :: rest) (given.put .esm ())
  | standing {f : Flag} {value : Text} {v : Fields.Value f} {rest : List Text}
    {given : Draft Flag} (hmark : isMarked value = false) (hvalue : f.value? value = some v)
    (hnew : given f = none) (h : Gives rest given) :
    Gives (f.written none :: value :: rest) (given.put f v)
  | attached {f : Flag} {value : Text} {v : Fields.Value f} {rest : List Text}
    {given : Draft Flag} (hvalue : f.value? value = some v) (hnew : given f = none)
    (h : Gives rest given) : Gives (f.written (some value) :: rest) (given.put f v)

section Written

theorem named?_name (f : Flag) : (Fields.named? (Fields.name f).toList : Option Flag) = some f := by
  cases f <;> decide

/-- The name of a flag has no equals sign. -/
theorem ne_equals_of_mem_name (f : Flag) : ∀ c ∈ (Fields.name f).toList, c ≠ '=' := by
  have hmem : '=' ∉ (Fields.name f).toList := by cases f <;> decide
  rintro c hc rfl
  exact hmem hc

/-- A flag asks for no help and does not end the arguments. -/
theorem written_plain (f : Flag) (attached : Option Text) :
    f.written attached ≠ dashes ∧ asksHelp (f.written attached) = false := by
  cases attached with
  | none => cases f <;> decide
  | some value =>
    cases f <;> constructor <;>
      simp [Flag.written, dashes, asksHelp, Fields.name, Text.startsWith, Text.after?]

/-- What an argument is that names a flag. -/
theorem flagOf?_eq_some_iff {arg : Text} {f : Flag} {attached : Option Text} :
    flagOf? arg = some (f, attached) ↔ arg = f.written attached := by
  have hname : ∀ c ∈ (Fields.name f).toList, decide (c ≠ '=') = true := by
    simpa using ne_equals_of_mem_name f
  simp only [flagOf?, Option.bind_eq_bind, Option.bind_eq_some_iff, List.span_eq_takeWhile_dropWhile,
    Option.pure_def, Option.some.injEq, Prod.mk.injEq]
  constructor
  · rintro ⟨body, hbody, g, hg, rfl, hattached⟩
    have hfound : (Fields.name g).toList = body.takeWhile (· ≠ '=') := by
      simpa using List.find?_some hg
    have hsplit := (List.takeWhile_append_dropWhile (p := (· ≠ '=')) (l := body)).symm
    rw [← hfound] at hsplit
    rw [Text.eq_append_of_after? hbody]
    cases hrest : body.dropWhile (· ≠ '=') with
    | nil =>
      rw [hrest, List.append_nil] at hsplit
      rw [hrest] at hattached
      rw [← hattached, hsplit]
      rfl
    | cons c value =>
      have hc : c = '=' := by
        have hhead := List.head?_dropWhile_not (· ≠ '=') body
        rw [hrest] at hhead
        simpa using hhead
      rw [hrest, hc] at hsplit
      rw [hrest] at hattached
      rw [← hattached, hsplit]
      rfl
  · rintro rfl
    cases attached with
    | none =>
      refine ⟨(Fields.name f).toList, Text.after?_append _ _, f, ?_, rfl, ?_⟩
      · rw [List.takeWhile_eq_self_iff.2 hname]
        exact named?_name f
      · rw [List.dropWhile_eq_nil_iff.2 hname]
    | some value =>
      refine ⟨(Fields.name f).toList ++ '=' :: value, Text.after?_append _ _, f, ?_, rfl, ?_⟩
      · rw [List.takeWhile_append_of_pos hname]
        simp [named?_name f]
      · rw [List.dropWhile_append_of_pos hname]
        simp

end Written

section Reading

variable {draft given : Draft Flag} {f : Flag} {value : Text} {args rest : List Text}
  {request : Request}

theorem readFlags_switch (hnew : draft .esm = none) :
    readFlags draft (Flag.esm.written none :: rest) = readFlags (draft.put .esm ()) rest := by
  obtain ⟨hdashes, hhelp⟩ := written_plain .esm none
  rw [readFlags, if_neg hdashes, if_neg (by simp [hhelp]), flagOf?_eq_some_iff.2 rfl]
  simp [hnew]

theorem readFlags_standing {v : Fields.Value f} (hmark : isMarked value = false)
    (hvalue : f.value? value = some v) (hnew : draft f = none) :
    readFlags draft (f.written none :: value :: rest) = readFlags (draft.put f v) rest := by
  obtain ⟨hdashes, hhelp⟩ := written_plain f none
  rw [readFlags, if_neg hdashes, if_neg (by simp [hhelp]), flagOf?_eq_some_iff.2 rfl]
  simp only [hnew, Option.isSome_none, Bool.false_eq_true, if_false]
  cases f with
  | esm => cases hvalue
  | _ => simp only [hmark, Bool.false_eq_true, if_false, hvalue]

theorem readFlags_attached {v : Fields.Value f} (hvalue : f.value? value = some v)
    (hnew : draft f = none) :
    readFlags draft (f.written (some value) :: rest) = readFlags (draft.put f v) rest := by
  obtain ⟨hdashes, hhelp⟩ := written_plain f (some value)
  rw [readFlags, if_neg hdashes, if_neg (by simp [hhelp]), flagOf?_eq_some_iff.2 rfl]
  simp only [hnew, Option.isSome_none, Bool.false_eq_true, if_false]
  cases f with
  | esm => cases hvalue
  | _ => simp only [hvalue]

/-- What a list gives is read into any draft that has none of it. -/
theorem readFlags_of_gives (h : Gives args given) (hapart : given.Apart draft) :
    readFlags draft args = (Arguments.ofDraft? (given.onto draft)).map .routes := by
  induction h generalizing draft with
  | nothing => simp [readFlags]
  | ended => simp [readFlags]
  | switch hnew h ih =>
    obtain ⟨hdraft, hapart⟩ := (Draft.apart_put_iff hnew).1 hapart
    rw [readFlags_switch hdraft, Draft.put_onto _ hnew, ih hapart]
  | standing hmark hvalue hnew h ih =>
    obtain ⟨hdraft, hapart⟩ := (Draft.apart_put_iff hnew).1 hapart
    rw [readFlags_standing hmark hvalue hdraft, Draft.put_onto _ hnew, ih hapart]
  | attached hvalue hnew h ih =>
    obtain ⟨hdraft, hapart⟩ := (Draft.apart_put_iff hnew).1 hapart
    rw [readFlags_attached hvalue hdraft, Draft.put_onto _ hnew, ih hapart]

/-- A list that is read as arguments gives the flags that make them. -/
theorem gives_of_readFlags {a : Arguments} (h : readFlags draft args = some (.routes a)) :
    ∃ given, Gives args given ∧ given.Apart draft ∧
      Arguments.ofDraft? (given.onto draft) = some a := by
  fun_induction readFlags draft args with
  | case1 draft =>
    exact ⟨Draft.empty, .nothing, fun f hf => absurd rfl hf, by simpa using h⟩
  | case2 draft rest hrest =>
    rw [List.isEmpty_iff.1 hrest]
    exact ⟨Draft.empty, .ended, fun f hf => absurd rfl hf, by simpa using h⟩
  | case7 draft arg _ _ rest hdraft harg ih =>
    obtain ⟨given, hgives, hapart, hargs⟩ := ih h
    have hnew : given .esm = none := Draft.free_of_apart_put hapart
    rw [flagOf?_eq_some_iff.1 harg]
    refine ⟨given.put .esm (), .switch hnew hgives, ?_, ?_⟩
    · exact (Draft.apart_put_iff hnew).2 ⟨by simpa using hdraft, hapart⟩
    · rwa [Draft.put_onto _ hnew]
  | case9 draft arg _ _ f value rest _ v hvalue hdraft harg ih =>
    obtain ⟨given, hgives, hapart, hargs⟩ := ih h
    have hnew : given f = none := Draft.free_of_apart_put hapart
    rw [flagOf?_eq_some_iff.1 harg]
    refine ⟨given.put f v, .attached hvalue hnew hgives, ?_, ?_⟩
    · exact (Draft.apart_put_iff hnew).2 ⟨by simpa using hdraft, hapart⟩
    · rwa [Draft.put_onto _ hnew]
  | case12 draft arg _ _ f value rest _ hmark v hvalue hdraft harg ih =>
    obtain ⟨given, hgives, hapart, hargs⟩ := ih h
    have hnew : given f = none := Draft.free_of_apart_put hapart
    rw [flagOf?_eq_some_iff.1 harg]
    refine ⟨given.put f v, .standing (by simpa using hmark) hvalue hnew hgives, ?_, ?_⟩
    · exact (Draft.apart_put_iff hnew).2 ⟨by simpa using hdraft, hapart⟩
    · rwa [Draft.put_onto _ hnew]
  | _ => cases h

theorem ofArgs?_routes (rest : List Text) :
    Request.ofArgs? ("routes".toList :: rest) = readFlags Draft.empty rest := by
  unfold Request.ofArgs?
  exact if_pos rfl

/-- Only the command that generates is read with arguments. -/
theorem eq_routes_of_ofArgs? {arg : Text} {a : Arguments}
    (h : Request.ofArgs? (arg :: rest) = some (.routes a)) : arg = "routes".toList := by
  by_contra harg
  unfold Request.ofArgs? at h
  simp only [harg, if_false] at h
  split at h
  · cases h
  · split at h
    · cases h
    · split at h
      · cases rest with
        | nil => cases h
        | cons topic rest =>
          cases rest with
          | nil =>
            simp only at h
            split at h
            · cases h
            · split at h <;> cases h
          | cons _ _ => cases h
      · cases h

/-- The reader accepts the lists that give flags, if those make arguments, and no others. -/
theorem ofArgs?_eq_routes_iff {a : Arguments} :
    Request.ofArgs? args = some (.routes a) ↔
      ∃ rest given, args = "routes".toList :: rest ∧ Gives rest given ∧
        Arguments.ofDraft? given = some a := by
  constructor
  · intro h
    cases args with
    | nil => cases h
    | cons arg rest =>
      have harg := eq_routes_of_ofArgs? h
      rw [harg, ofArgs?_routes] at h
      obtain ⟨given, hgives, -, ha⟩ := gives_of_readFlags h
      rw [Draft.onto_empty] at ha
      exact ⟨rest, given, by rw [harg], hgives, ha⟩
  · rintro ⟨rest, given, rfl, hgives, ha⟩
    rw [ofArgs?_routes, readFlags_of_gives hgives (Draft.apart_empty given), Draft.onto_empty, ha]
    rfl

end Reading

end CommandLine

end RouteModule
