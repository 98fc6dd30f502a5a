import RouteModule.Template.Expr.Reader

/-!
Expressions that are a single operand. The grammar of expressions has a stage for each kind of operator,
and each stage reads operands of the stage below with operators between them. Where an operand is read
and no sign of an operator, a filter or an argument follows it, every stage gives the operand as it is,
and so does the whole expression.
-/

namespace RouteModule.Template

open Reader

variable {α β : Type} {t u : Text} {d : Char}

section Marks

/-- The signs that operators, filters, arguments and brackets start with. -/
def signs : List Char := ['+', '-', '*', '/', '%', '|', '<', '>', '=', '!', '~', '(', '[']

/-- No expression goes on over a text by a sign. -/
def Ends (t : Text) : Prop := ∀ c ∈ (skip t).head?, c ∉ signs

theorem mark_of_ne {m : String} {ds : List Char} (hm : m.toList = d :: ds)
    (h : ∀ c ∈ (skip t).head?, c ≠ d) : mark m t = none := by
  rw [mark, hm]
  cases hskip : skip t with
  | nil => rfl
  | cons c rest =>
    have hc : d ≠ c := (h c (by rw [hskip]; rfl)).symm
    simp [Text.after?, hc]

theorem Ends.mark (h : Ends t) {m : String} {ds : List Char} (hm : m.toList = d :: ds)
    (hd : d ∈ signs) : mark m t = none := by
  refine mark_of_ne hm fun c hc => ?_
  rintro rfl
  exact h c hc hd

theorem oneOf_eq_none_iff {list : List (String × α)} :
    oneOf list t = none ↔ ∀ s ∈ list, mark s.1 t = none := by
  induction list with
  | nil => simp [oneOf]
  | cons s list ih =>
    rw [List.forall_mem_cons, ← ih]
    cases hmark : mark s.1 t with
    | none => simp [oneOf, Reader.or, sign, hmark]
    | some r => simp [oneOf, Reader.or, sign, hmark]

theorem oneOf_eq_some {list : List (String × α)} {x : α} (h : oneOf list t = some (x, u)) :
    ∃ s ∈ list, mark s.1 t = some ((), u) := by
  induction list with
  | nil => cases h
  | cons s list ih =>
    cases hmark : mark s.1 t with
    | none =>
      simp only [oneOf, Reader.or, sign, hmark, Option.map_none] at h
      obtain ⟨r, hr, hread⟩ := ih h
      exact ⟨r, List.mem_cons_of_mem s hr, hread⟩
    | some r =>
      simp only [oneOf, Reader.or, sign, hmark, Option.map_some, Option.some.injEq, Prod.mk.injEq] at h
      exact ⟨s, List.mem_cons_self, by rw [hmark, ← h.2]⟩

theorem Ends.oneOf (h : Ends t) {list : List (String × α)}
    (hlist : ∀ s ∈ list, ∃ d ∈ signs, ∃ ds, s.1.toList = d :: ds) : oneOf list t = none := by
  apply oneOf_eq_none_iff.2
  intro s hs
  obtain ⟨d, hd, ds, hm⟩ := hlist s hs
  exact h.mark hm hd

theorem Ends.arithmeticSign (h : Ends t) : arithmeticSign t = none := by
  apply h.oneOf
  simp only [List.forall_mem_cons, List.not_mem_nil, false_imp_iff, implies_true, and_true]
  exact ⟨⟨'+', by decide, [], rfl⟩, ⟨'-', by decide, [], rfl⟩, ⟨'*', by decide, [], rfl⟩,
    ⟨'/', by decide, [], rfl⟩, ⟨'%', by decide, [], rfl⟩⟩

theorem Ends.comparisonSign (h : Ends t) : comparisonSign t = none := by
  apply h.oneOf
  simp only [List.forall_mem_cons, List.not_mem_nil, false_imp_iff, implies_true, and_true]
  exact ⟨⟨'<', by decide, ['='], rfl⟩, ⟨'>', by decide, ['='], rfl⟩, ⟨'<', by decide, [], rfl⟩,
    ⟨'>', by decide, [], rfl⟩, ⟨'=', by decide, ['='], rfl⟩, ⟨'!', by decide, ['='], rfl⟩⟩

end Marks

section Chains

theorem or_of_some {p q : Reader α} {r : α × Text} (h : p t = some r) : Reader.or p q t = some r := by
  simp only [Reader.or, h]

theorem or_of_none {p q : Reader α} (h : p t = none) : Reader.or p q t = q t := by
  simp only [Reader.or, h]

theorem many_of_none {p : Reader α} (h : p t = none) (n : Nat) : many p n t = ([], t) := by
  cases n with
  | zero => rfl
  | succ n => simp only [many, h]

/-- An operand stands alone if no operator with another operand follows it. -/
theorem chain_of_some {operand : Reader α} {operator : Reader β} {x : α}
    (hfirst : operand t = some (x, u)) (hmore : ∀ b v, operator u = some (b, v) → operand v = none) :
    chain operand operator t = some ((x, []), u) := by
  simp only [chain, hfirst, Option.bind_eq_bind, Option.bind_some]
  rw [many_of_none]
  · rfl
  · cases hop : operator u with
    | none => rfl
    | some r => simp [hmore r.1 r.2 hop]

theorem chain_of_none {operand : Reader α} {operator : Reader β} (h : operand t = none) :
    chain operand operator t = none := by
  simp only [chain, h]
  rfl

end Chains

section Stages

variable {value operand : Reader Expr} {e : Expr}

theorem Ends.filter? (h : Ends t) : filter? value t = none := by
  rw [Template.filter?, h.mark rfl (by decide)]
  rfl

theorem filtered?_of_some (h : operand t = some (e, u)) (hu : Ends u) :
    filtered? value operand t = some (e, u) := by
  simp only [filtered?, h, Option.bind_eq_bind, Option.bind_some, many_of_none hu.filter?,
    List.foldl_nil]
  rfl

theorem filtered?_of_none (h : operand t = none) : filtered? value operand t = none := by
  simp only [filtered?, h]
  rfl

theorem arithmetic?_of_some (h : operand t = some (e, u)) (hu : Ends u) :
    arithmetic? operand t = some (e, u) := by
  have hmore : ∀ b v, arithmeticSign u = some (b, v) → operand v = none := by
    intro b v hop
    rw [hu.arithmeticSign] at hop
    cases hop
  rw [arithmetic?, chain_of_some h hmore]
  rfl

theorem arithmetic?_of_none (h : operand t = none) : arithmetic? operand t = none := by
  rw [arithmetic?, chain_of_none h]
  rfl

/-- A part of a concatenation. -/
def textPart? (value : Reader Expr) : Reader Expr :=
  Reader.or (call? value)
    (Reader.or (spaced real?) (Reader.or (spaced integer?)
      (Reader.or (spaced text?) (spaced identifier?))))

/-- A part alone is no concatenation. -/
theorem concat?_of_some (h : textPart? value t = some (e, u)) (hu : Ends u) : concat? value t = none := by
  have hmore : ∀ b v, mark "~" u = some (b, v) → textPart? value v = none := by
    intro b v hop
    rw [hu.mark rfl (by decide)] at hop
    cases hop
  change (chain (textPart? value) (mark "~") t).bind _ = none
  rw [chain_of_some h hmore]
  rfl

theorem concat?_of_none (h : textPart? value t = none) : concat? value t = none := by
  change (chain (textPart? value) (mark "~") t).bind _ = none
  rw [chain_of_none h]
  rfl

theorem filteredText?_of_none (hconcat : concat? value t = none) (htext : spaced text? t = none) :
    filteredText? value t = none := by
  apply filtered?_of_none
  rw [or_of_none hconcat, htext]

/-- A text starts with neither a negation nor a text nor a parenthesis, so that the first thing to be
read from it is a simple value. -/
structure StartsSimple (t : Text) : Prop where
  negation : word "not" t = none
  text : ∀ value, filteredText? value t = none
  parenthesis : mark "(" t = none

/-- Blanks in front of a simple value do not count. -/
theorem StartsSimple.blank (ht : StartsSimple t) : StartsSimple (' ' :: t) :=
  ⟨ht.negation, ht.text, ht.parenthesis⟩

theorem simple?_blank (t : Text) : simple? value (' ' :: t) = simple? value t := rfl

theorem StartsSimple.negation_eq (ht : StartsSimple t) : Template.negation t = (false, t) := by
  simp only [Template.negation, ht.negation]

theorem StartsSimple.sum? (ht : StartsSimple t) (h : simple? value t = some (e, u)) (hu : Ends u)
    (n : Nat) : sum? value (n + 1) t = some (e, u) := by
  rw [Template.sum?]
  apply arithmetic?_of_some _ hu
  rw [or_of_none, h]
  rw [ht.parenthesis]
  rfl

theorem StartsSimple.comparison? (ht : StartsSimple t) (h : simple? value t = some (e, u))
    (hu : Ends u) : comparison? value t = some (e, u) := by
  have hside : side? value t = some (e, u) := by
    rw [side?, or_of_none (ht.text value)]
    exact arithmetic?_of_some (filtered?_of_some (ht.sum? h hu _) hu) hu
  simp only [Template.comparison?, hside, Option.bind_eq_bind, Option.bind_some, hu.comparisonSign]
  rfl

theorem StartsSimple.condition? (ht : StartsSimple t) (h : ∀ value, simple? value t = some (e, u))
    (hu : Ends u) (n : Nat) : condition? (n + 1) t = some (e, u) := by
  rw [Template.condition?]
  apply or_of_some
  simp only [ht.negation_eq, ht.comparison? (h _) hu, Option.bind_eq_bind, Option.bind_some]
  rfl

/-- A simple value alone is the whole expression, if no word with another condition follows it. -/
theorem StartsSimple.value? (ht : StartsSimple t) (h : ∀ value, simple? value t = some (e, u))
    (hu : Ends u) (hmore : ∀ b v, logicWord u = some (b, v) → ∀ n, Template.condition? n v = none) :
    value? t = some (e, u) := by
  rw [Template.value?, valueOf]
  apply or_of_some
  rw [logicOf, chain_of_some (ht.condition? h hu t.length) fun b v hop => hmore b v hop _]
  rfl

/-- Nothing is read where there is no simple value either. -/
theorem StartsSimple.condition?_of_none (ht : StartsSimple t) (h : ∀ value, simple? value t = none)
    (n : Nat) : Template.condition? n t = none := by
  have hsum : ∀ value m, Template.sum? value m t = none := by
    intro value m
    cases m with
    | zero => rfl
    | succ m =>
      rw [Template.sum?]
      apply arithmetic?_of_none
      rw [or_of_none, h]
      rw [ht.parenthesis]
      rfl
  have hside : ∀ value, side? value t = none := by
    intro value
    rw [side?, or_of_none (ht.text value)]
    exact arithmetic?_of_none (filtered?_of_none (hsum value _))
  cases n with
  | zero => rfl
  | succ n =>
    rw [Template.condition?]
    refine (or_of_none ?_).trans ?_
    · simp only [ht.negation_eq, Template.comparison?, hside]
      rfl
    · simp only [ht.parenthesis]
      rfl

end Stages

section Refusals

variable {value : Reader Expr} {c : Char}

theorem integerDigits?_of_ne (hdash : c ≠ '-') (hdigit : Text.isDigit c = false) (t : Text) :
    integerDigits? (c :: t) = none := by
  have hminus : minus (c :: t) = (false, c :: t) := by
    unfold minus
    split
    · next heq => exact absurd (List.cons.inj heq).1 hdash
    · rfl
  have hwhole : wholePart? (c :: t) = none := by
    unfold wholePart?
    split
    · next heq =>
      obtain ⟨rfl, -⟩ := List.cons.inj heq
      cases hdigit
    · next heq =>
      obtain ⟨rfl, -⟩ := List.cons.inj heq
      rw [hdigit]
      rfl
    · rfl
  simp only [integerDigits?, hminus, hwhole]
  rfl

theorem real?_of_none (h : integerDigits? t = none) : real? t = none := by
  simp only [real?, h]
  rfl

theorem integer?_of_none (h : integerDigits? t = none) : integer? t = none := by
  simp only [integer?, h]
  rfl

theorem text?_of_ne (h : c ≠ '"' ∧ c ≠ '\'' ∧ c ≠ '\x60') (t : Text) : text? (c :: t) = none := by
  simp only [text?, quoted?, h, or_self, if_false, Option.map_none]

theorem call?_of_none (h : name? (skip t) = none) : call? value t = none := by
  simp only [call?, application?, spaced, h]
  rfl

/-- A name without arguments behind it is no call. -/
theorem call?_of_some {name : Text} (h : name? (skip t) = some (name, u)) (hu : Ends u) :
    call? value t = none := by
  have hopen : mark "(" u = none := hu.mark rfl (by decide)
  simp only [call?, application?, spaced, h, Option.bind_eq_bind, Option.bind_some, hopen]
  rfl

end Refusals

end RouteModule.Template
