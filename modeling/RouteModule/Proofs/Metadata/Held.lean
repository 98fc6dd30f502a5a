import RouteModule.Metadata.Reader
import RouteModule.Proofs.Document.Success

/-!
What was set aside is read the same way in every format. The formats differ in the words of their
complaints, so that two readings agree if they give the same value or a complaint each.
-/

namespace RouteModule

namespace Reading

variable {r r' : Reading α} {xs : List β}

/-- Two readings that follow no references give the same value, or a complaint each. -/
inductive Agree (r r' : Reading α) : Prop where
  | value (x : α) (h : r = pure x) (h' : r' = pure x)
  | fault (f f' : Fault) (h : r = throw f) (h' : r' = throw f')

theorem Agree.pure (x : α) : Agree (Pure.pure x) (Pure.pure x) := .value x rfl rfl

theorem Agree.throw (f f' : Fault) : Agree (throw f : Reading α) (MonadExcept.throw f') :=
  .fault f f' rfl rfl

/-- What the one of them gives, the other gives without looking further. -/
theorem Agree.eq_pure {x : α} (h : Agree r r') (hx : Succeeds r x) : r' = Pure.pure x := by
  cases h with
  | value y h h' =>
    rw [h, succeeds_pure_iff] at hx
    rw [h', hx]
  | fault f f' h h' =>
    rw [h] at hx
    exact absurd hx (not_succeeds_throw f)

theorem Agree.bind {g g' : α → Reading β} (h : Agree r r') (hg : ∀ x, Agree (g x) (g' x)) :
    Agree (r >>= g) (r' >>= g') := by
  cases h with
  | value x h h' =>
    rw [h, h', pure_bind, pure_bind]
    exact hg x
  | fault f f' h h' =>
    rw [h, h']
    exact .throw f f'

theorem Agree.mapM {g g' : β → Reading α} (hg : ∀ x, Agree (g x) (g' x)) :
    Agree (xs.mapM g) (xs.mapM g') := by
  induction xs with
  | nil => exact .pure []
  | cons x xs ih =>
    rw [List.mapM_cons, List.mapM_cons]
    exact (hg x).bind fun y => ih.bind fun ys => .pure (y :: ys)

theorem Agree.lift (e : Except Fault α) : Agree (liftM e : Reading α) (liftM e) := by
  cases e with
  | ok x => exact .pure x
  | error f => exact .throw f f

end Reading

open Reading (Agree)

namespace Dialect

variable {ts : Array Node} (f f' : Format) (n : Node)

/-- The rules for nodes that were set aside. -/
def aside (ts : Array Node) (f : Format) : Dialect := ⟨f, .held, ts⟩

section Scalars

/-- The node itself, or the one that a reference stands for. -/
def resolve (ts : Array Node) : Node → Node
  | .reference id => ts.getD id .broken
  | n => n

theorem follow_aside : (aside ts f).follow n = pure (resolve ts n) := by
  cases n <;> rfl

theorem isLoose_aside : (aside ts f).isLoose = false := by
  simp [isLoose, aside]

theorem text?_aside : (aside ts f).text? n = (aside ts f').text? n := by
  simp only [text?, isLoose_aside]

theorem container_aside : (aside ts f).container n = n := by
  rw [container, isLoose_aside]
  rfl

theorem isEmpty_aside : (aside ts f).isEmpty n = false := by
  rw [isEmpty, isLoose_aside, Bool.false_and]

theorem agree_text (expected : String) :
    Agree ((aside ts f).text expected n) ((aside ts f').text expected n) := by
  rw [text, text, follow_aside, follow_aside, pure_bind, pure_bind, text?_aside f f']
  cases (aside ts f').text? (resolve ts n) with
  | none => exact .throw _ _
  | some t => exact .pure t

theorem agree_entryName (expected : String) :
    Agree ((aside ts f).entryName expected n) ((aside ts f').entryName expected n) := by
  have hstage : ∀ g, ¬ ((aside ts g).format = .json ∧ (aside ts g).stage = .text) := fun g h => by
    cases h.2
  rw [entryName, entryName, follow_aside, follow_aside, pure_bind, pure_bind, text?_aside f f',
    if_neg (hstage f), if_neg (hstage f')]
  cases (aside ts f').text? (resolve ts n) with
  | none => exact .throw _ _
  | some t => exact .pure t

theorem agree_bool : Agree ((aside ts f).bool n) ((aside ts f').bool n) := by
  rw [bool, bool, follow_aside, follow_aside, pure_bind, pure_bind, atom?, atom?, isLoose_aside,
    isLoose_aside]
  split
  · exact .pure _
  · exact .throw _ _

theorem agree_optional {read read' : Node → Reading α} (h : ∀ n, Agree (read n) (read' n)) :
    Agree ((aside ts f).optional read n) ((aside ts f').optional read' n) := by
  have hsome : ∀ n, Agree (do return some (← read n)) (do return some (← read' n)) := fun n =>
    (h n).bind fun x => .pure (some x)
  rw [optional, optional, follow_aside, follow_aside, pure_bind, pure_bind, isLoose_aside,
    isLoose_aside]
  split
  · exact .pure none
  · split
    · exact .pure none
    · exact .throw _ _
    · exact hsome _
  · exact hsome _

end Scalars

section Containers

variable (depth : Nat)

theorem agree_list {read read' : Nat → Node → Reading α}
    (h : ∀ depth n, Agree (read depth n) (read' depth n)) :
    Agree ((aside ts f).list depth read n) ((aside ts f').list depth read' n) := by
  rw [list, list, follow_aside, follow_aside, pure_bind, pure_bind, container_aside,
    container_aside, isEmpty_aside, isEmpty_aside]
  split
  · exact .mapM (h _)
  · exact .throw _ _
  · exact .throw _ _

theorem agree_entries {read read' : Node → Reading α} (h : ∀ n, Agree (read n) (read' n))
    (es : List (Node × Node)) :
    Agree ((aside ts f).entries read es) ((aside ts f').entries read' es) := by
  induction es with
  | nil => exact .pure []
  | cons e es ih =>
    obtain ⟨key, value⟩ := e
    rw [entries, entries]
    exact (agree_entryName f f' key _).bind fun name => (h value).bind fun x =>
      ih.bind fun rest => .pure ((name, x) :: rest)

theorem agree_table {read read' : Nat → Node → Reading α}
    (h : ∀ depth n, Agree (read depth n) (read' depth n)) :
    Agree ((aside ts f).table depth read n) ((aside ts f').table depth read' n) := by
  rw [table, table, follow_aside, follow_aside, pure_bind, pure_bind, container_aside,
    container_aside, isEmpty_aside, isEmpty_aside]
  split
  · exact (agree_entries f f' (h _) _).bind fun rest => .pure (Table.ofList rest)
  · exact .throw _ _
  · exact .throw _ _

theorem agree_jsonOfAtom (source : Text) (value : Atom) :
    Agree ((aside ts f).jsonOfAtom source value) ((aside ts f').jsonOfAtom source value) := by
  cases value with
  | wide => exact .throw _ _
  | mistagged => exact .throw _ _
  | _ => exact .pure _

/-- A reference to a reference is no value. -/
theorem json_reference (id : Nat) :
    (aside ts f).json depth (.reference id) = match ts.getD id .broken with
      | .reference _ => throw .malformed
      | m => (aside ts f).json depth m := by
  have hfollow : (aside ts f).follow (.reference id) = pure (resolve ts (.reference id)) :=
    follow_aside f _
  rw [resolve] at hfollow
  cases depth <;> delta json
  all_goals
    change ((aside ts f).follow (.reference id) >>= _) = _
    rw [hfollow, pure_bind]
    cases ts.getD id .broken with
    | mapping es => cases es <;> rfl
    | _ => rfl

theorem agree_json_plain (hparts : ∀ below, depth = below + 1 → ∀ n,
      Agree ((aside ts f).json below n) ((aside ts f').json below n))
    (hn : ∀ id, n ≠ .reference id) :
    Agree ((aside ts f).json depth n) ((aside ts f').json depth n) := by
  have hthrow : ∀ g, (∀ f, (aside ts f).json depth n = throw g) →
      Agree ((aside ts f).json depth n) ((aside ts f').json depth n) := fun g h => by
    rw [h f, h f']
    exact .throw g g
  cases n with
  | atom source value =>
    rw [json_atom, json_atom]
    exact agree_jsonOfAtom f f' source value
  | cast source absentable direct value =>
    have hcast : ∀ f, (aside ts f).json depth (.cast source absentable direct value) =
        (aside ts f).jsonOfAtom source value := fun f => by
      cases depth <;> (delta json; rfl)
    rw [hcast f, hcast f']
    exact agree_jsonOfAtom f f' source value
  | sequence items =>
    cases depth with
    | zero => exact hthrow .malformed fun f => by delta json; rfl
    | succ below =>
      rw [json_sequence, json_sequence]
      exact (Agree.mapM (hparts below rfl)).bind fun vs => .pure _
  | mapping es =>
    cases depth with
    | zero => exact hthrow .malformed fun f => by cases es <;> (delta json; rfl)
    | succ below =>
      cases es with
      | nil =>
        rw [json_mapping_nil, json_mapping_nil]
        exact .pure _
      | cons e es =>
        rw [json_mapping_cons, json_mapping_cons]
        exact (agree_entryName f f' e.1 _).bind fun name => (hparts below rfl e.2).bind fun v =>
          (agree_entries f f' (hparts below rfl) es).bind fun rest => .pure _
  | tagged tag n => exact hthrow _ fun f => by cases depth <;> (delta json; rfl)
  | reference id => exact absurd rfl (hn id)
  | unreadable => exact hthrow .malformed fun f => by cases depth <;> (delta json; rfl)
  | broken => exact hthrow .malformed fun f => by cases depth <;> (delta json; rfl)

theorem agree_json_of_plain (hplain : ∀ n, (∀ id, n ≠ .reference id) →
      Agree ((aside ts f).json depth n) ((aside ts f').json depth n)) :
    Agree ((aside ts f).json depth n) ((aside ts f').json depth n) := by
  cases n with
  | reference id =>
    rw [json_reference, json_reference]
    split
    · exact .throw _ _
    · next hother => exact hplain _ hother
  | _ => exact hplain _ fun id h => by cases h

theorem agree_json : Agree ((aside ts f).json depth n) ((aside ts f').json depth n) := by
  induction depth generalizing n with
  | zero =>
    exact agree_json_of_plain f f' n 0 fun n => agree_json_plain f f' n 0 fun below h => by cases h
  | succ depth ih =>
    refine agree_json_of_plain f f' n (depth + 1) fun n =>
      agree_json_plain f f' n (depth + 1) fun below h n => ?_
    obtain rfl := Nat.succ.inj h
    exact ih n

end Containers

section Records

variable {ι : Type} [Fields ι]

theorem agree_field? :
    Agree ((aside ts f).field? n : Reading (Option ι)) ((aside ts f').field? n) := by
  rw [field?, field?, follow_aside, follow_aside, pure_bind, pure_bind, text?_aside f f']
  cases (aside ts f').text? (resolve ts n) with
  | some t => exact .pure _
  | none =>
    cases ordinal? (resolve ts n) with
    | some i => exact .pure _
    | none => exact (agree_entryName f f' _ _).bind fun _ => .pure none

variable [DecidableEq ι] {read read' : Readers ι}
  {finish : Draft ι → (ι → Fault) → Except Fault α}

theorem agree_fill (h : ∀ i n, Agree (read i n) (read' i n)) (es : List (Node × Node))
    (draft : Draft ι) :
    Agree ((aside ts f).fill read es draft) ((aside ts f').fill read' es draft) := by
  induction es generalizing draft with
  | nil => exact .pure draft
  | cons e es ih =>
    obtain ⟨key, value⟩ := e
    rw [fill, fill]
    refine (agree_field? f f' key).bind fun found => ?_
    cases found with
    | none =>
      dsimp only
      have hskip : Agree (skip value) (skip value) := by
        rw [skip]
        split
        · exact .pure ()
        · exact .throw _ _
      exact hskip.bind fun _ => ih draft
    | some i =>
      dsimp only
      split
      · exact .throw _ _
      · exact (h i value).bind fun v => ih (draft.put i v)

theorem agree_fillInOrder (h : ∀ i n, Agree (read i n) (read' i n)) (fields : List ι)
    (items : List Node) (draft : Draft ι) :
    Agree (fillInOrder read fields items draft) (fillInOrder read' fields items draft) := by
  induction fields generalizing items draft with
  | nil => exact .pure _
  | cons i fields ih =>
    cases items with
    | nil => exact .pure _
    | cons node items => exact (h i node).bind fun v => ih items (draft.put i v)

theorem agree_record (expected : String) (h : ∀ i n, Agree (read i n) (read' i n)) :
    Agree ((aside ts f).record expected (some read) finish n)
      ((aside ts f').record expected (some read') finish n) := by
  rw [record, record, follow_aside, follow_aside, pure_bind, pure_bind, container_aside,
    container_aside, isEmpty_aside, isEmpty_aside]
  cases resolve ts n with
  | mapping es => exact (agree_fill f f' h es _).bind fun draft => .lift _
  | sequence items =>
    refine (agree_fillInOrder h _ items _).bind fun p => Agree.bind (.lift _) fun x => ?_
    split
    · exact .pure x
    · exact .throw _ _
  | _ => exact .throw _ _

/-- A record that is too deep is refused. -/
theorem agree_record_none (expected : String) :
    Agree ((aside ts f).record (ι := ι) expected none finish n)
      ((aside ts f').record (ι := ι) expected none finish n) := by
  rw [record, record, follow_aside, follow_aside, pure_bind, pure_bind, container_aside,
    container_aside, isEmpty_aside, isEmpty_aside]
  cases resolve ts n <;> exact .throw _ _

end Records

end Dialect

open Dialect (aside)

variable {ts : Array Node} (f f' : Format) (depth : Nat) (n : Node)

theorem TypeSchema.agree_read : Agree (read (aside ts f) depth n) (read (aside ts f') depth n) := by
  induction depth generalizing n with
  | zero => exact Dialect.agree_record_none f f' n _
  | succ depth ih =>
    refine Dialect.agree_record f f' n _ fun i n => ?_
    cases i with
    | dataType => exact Dialect.agree_text f f' n _
    | ref => exact Dialect.agree_optional f f' n fun n => Dialect.agree_text f f' n _
    | array => exact Dialect.agree_optional f f' n fun n => ih n
    | enums =>
      exact Dialect.agree_optional f f' n fun n => Dialect.agree_list f f' n depth fun depth n =>
        Dialect.agree_json f f' n depth

namespace Property

theorem agree_split (es : List (Node × Node)) (required : Option Bool) :
    Agree (split (aside ts f) es required) (split (aside ts f') es required) := by
  induction es generalizing required with
  | nil => exact .pure _
  | cons e es ih =>
    obtain ⟨key, value⟩ := e
    rw [split, split, Dialect.follow_aside, Dialect.follow_aside, pure_bind, pure_bind,
      Dialect.text?_aside f f']
    split
    · split
      · exact .throw _ _
      · exact (Dialect.agree_bool f f' value).bind fun b => ih (some b)
    · split
      · exact (Dialect.agree_entryName f f' _ _).bind fun _ => (ih required).bind fun p => .pure _
      · exact (ih required).bind fun p => .pure _

theorem agree_read : Agree (read (aside ts f) depth n) (read (aside ts f') depth n) := by
  rw [read, read, Dialect.follow_aside, Dialect.follow_aside, pure_bind, pure_bind]
  split
  · refine (agree_split f f' _ none).bind fun p => ?_
    simp only [Dialect.text?_aside f f']
    exact (TypeSchema.agree_read f f' depth _).bind fun schema => .pure _
  · exact .throw _ _

end Property

namespace ReferenceType

theorem agree_readKind (kind : Kind) :
    Agree (readKind (aside ts f) depth n kind) (readKind (aside ts f') depth n kind) := by
  cases kind with
  | object =>
    refine Dialect.agree_record f f' n _ fun i n => ?_
    cases i with
    | properties =>
      exact Dialect.agree_table f f' n depth fun depth n => Property.agree_read f f' depth n
    | additionalProperties =>
      exact Dialect.agree_optional f f' n fun n => Dialect.agree_json f f' n depth
  | enumeration =>
    refine Dialect.agree_record f f' n _ fun i n => ?_
    cases i with
    | enums => exact Dialect.agree_list f f' n depth fun depth n => Dialect.agree_json f f' n depth
  | «alias» =>
    refine Dialect.agree_record f f' n _ fun i n => ?_
    cases i with
    | type => exact TypeSchema.agree_read f f' depth n

end ReferenceType

end RouteModule
