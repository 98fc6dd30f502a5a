import Mathlib.Data.List.DropRight
import RouteModule.Proofs.Json.Lexeme

/-!
The texts of trees. `Spells` says of a tree and a text that the text writes the tree: its brackets,
braces, commas and colons are those of the tree, there may be blanks between them, and the scalars are
what the readers of scalars take for them. A text is read as the tree that it writes, and whatever is
read to its end is written that way.
-/

namespace RouteModule.Json

/-- Nothing but blanks. -/
def Blank (t : Text) : Prop := ∀ c ∈ t, isSpace c = true

/-- A text writes a scalar. -/
inductive SpellsScalar : Node → Text → Prop where
  | null : SpellsScalar (.atom "null".toList .null) "null".toList
  | true : SpellsScalar (.atom "true".toList (.bool true)) "true".toList
  | false : SpellsScalar (.atom "false".toList (.bool false)) "false".toList
  | number {node : Node} {t : Text} (h : readNumber t = (node, some [])) : SpellsScalar node t
  | text {node : Node} {t : Text} (h : readText t = (node, some [])) : SpellsScalar node ('"' :: t)

mutual

/-- A text writes a tree. There are no tags and no references in a JSON text. -/
def Spells : Node → Text → Prop
  | .atom source value, t => SpellsScalar (.atom source value) t
  | .unreadable, t => SpellsScalar .unreadable t
  | .sequence items, t =>
    ∃ r, t = '[' :: r ∧
      ((items = [] ∧ ∃ a, Blank a ∧ r = a ++ [']']) ∨ SpellsItems items r)
  | .mapping es, t =>
    ∃ r, t = '\x7b' :: r ∧
      ((es = [] ∧ ∃ a, Blank a ∧ r = a ++ ['\x7d']) ∨ SpellsEntries es r)
  | .cast _ _ _ _, _ => False
  | .tagged _ _, _ => False
  | .reference _, _ => False
  | .broken, _ => False

/-- A text writes items, of which there is at least one, up to the bracket behind them. -/
def SpellsItems : List Node → Text → Prop
  | [], _ => False
  | node :: rest, t =>
    ∃ a v b r, t = a ++ (v ++ (b ++ r)) ∧ Blank a ∧ Blank b ∧ Spells node v ∧
      ((rest = [] ∧ r = [']']) ∨ ∃ s, r = ',' :: s ∧ SpellsItems rest s)

/-- A text writes entries, of which there is at least one, up to the brace behind them. -/
def SpellsEntries : List (Node × Node) → Text → Prop
  | [], _ => False
  | (key, value) :: rest, t =>
    ∃ a k b c v d r, t = a ++ ('"' :: (k ++ (b ++ ':' :: (c ++ (v ++ (d ++ r)))))) ∧
      Blank a ∧ Blank b ∧ Blank c ∧ Blank d ∧ readText k = (key, some []) ∧ Spells value v ∧
      ((rest = [] ∧ r = ['\x7d']) ∨ ∃ s, r = ',' :: s ∧ SpellsEntries rest s)

end

/-- A text is a document with one tree in it and nothing else. -/
def SpellsDocument (n : Node) (t : Text) : Prop :=
  ∃ a v b, t = a ++ (v ++ b) ∧ Blank a ∧ Blank b ∧ Spells n v

section Blanks

variable {a b t : Text}

theorem blank_nil : Blank [] := by simp [Blank]

theorem skipSpace_append (ha : Blank a) (t : Text) : skipSpace (a ++ t) = skipSpace t :=
  List.dropWhile_append_of_pos ha

theorem exists_blank (t : Text) : ∃ a, Blank a ∧ t = a ++ skipSpace t :=
  ⟨t.takeWhile isSpace, List.all_eq_true.1 List.all_takeWhile,
    List.takeWhile_append_dropWhile.symm⟩

theorem Blank.append (ha : Blank a) (hb : Blank b) : Blank (a ++ b) := by
  intro c hc
  rcases List.mem_append.1 hc with hc | hc
  · exact ha c hc
  · exact hb c hc

theorem endsNumber_blank (ha : Blank a) (ht : EndsNumber t) : EndsNumber (a ++ t) := by
  cases a with
  | nil => exact ht
  | cons c a =>
    have hc : isSpace c = true := ha c List.mem_cons_self
    have hspace : c = ' ' ∨ c = '\n' ∨ c = '\t' ∨ c = '\r' := by
      simpa [isSpace, or_assoc] using hc
    refine endsNumber_cons ?_ _
    rcases hspace with rfl | rfl | rfl | rfl <;> decide

end Blanks

section Reading

variable {n : Node} {v rest : Text}

theorem SpellsScalar.startsValue (h : SpellsScalar n v) (rest : Text) : StartsValue (v ++ rest) := by
  cases h with
  | null => exact ⟨'n', _, rfl, by decide⟩
  | true => exact ⟨'t', _, rfl, by decide⟩
  | false => exact ⟨'f', _, rfl, by decide⟩
  | number h =>
    obtain ⟨c, t, rfl, hc⟩ := head_of_readNumber h
    exact ⟨c, t ++ rest, rfl, isSpace_of_number hc, ne_of_number hc (by decide),
      ne_of_number hc (by decide)⟩
  | text h => exact ⟨'"', _, rfl, by decide⟩

theorem startsValue_of_spells (h : Spells n v) (rest : Text) : StartsValue (v ++ rest) := by
  cases n with
  | atom source value => exact SpellsScalar.startsValue h rest
  | unreadable => exact SpellsScalar.startsValue h rest
  | sequence items =>
    obtain ⟨r, rfl, -⟩ := h
    exact ⟨'[', _, rfl, by decide⟩
  | mapping es =>
    obtain ⟨r, rfl, -⟩ := h
    exact ⟨'\x7b', _, rfl, by decide⟩
  | cast => exact absurd h id
  | tagged => exact absurd h id
  | reference => exact absurd h id
  | broken => exact absurd h id

/-- A scalar is read in front of what does not go on with a number. -/
theorem SpellsScalar.read (h : SpellsScalar n v) (fuel : Nat) (hrest : EndsNumber rest) :
    readValue (fuel + 1) (v ++ rest) = (n, some rest) := by
  cases h with
  | null => rfl
  | true => rfl
  | false => rfl
  | number h =>
    obtain ⟨c, t, rfl, hc⟩ := head_of_readNumber h
    obtain ⟨u, hu, hread⟩ := readNumber_lexeme h
    rw [List.append_nil] at hu
    have hnumber := hread rest hrest
    rw [← hu] at hnumber
    rw [List.cons_append] at hnumber ⊢
    rw [readValue_of_number hc, hnumber]
  | @text node t h =>
    obtain ⟨u, hu, hread⟩ := readText_lexeme h
    rw [List.append_nil] at hu
    subst hu
    rw [List.cons_append, readValue, skipSpace_cons (by decide)]
    exact hread rest

theorem skipSpace_startsValue {t : Text} (h : StartsValue t) : skipSpace t = t := by
  obtain ⟨c, r, rfl, hspace, -⟩ := h
  exact skipSpace_cons hspace r

/-- What is written behind an opening bracket starts with no blank once the blanks are left out. -/
theorem SpellsItems.skipSpace {items : List Node} (h : SpellsItems items v) (rest : Text) :
    ∃ u, SpellsItems items u ∧ Json.skipSpace (v ++ rest) = u ++ rest ∧ StartsValue (u ++ rest) ∧
      u.length ≤ v.length := by
  cases items with
  | nil => exact absurd h id
  | cons node items =>
    obtain ⟨a, w, b, r, rfl, ha, hb, hw, hr⟩ := h
    have hstart : StartsValue (w ++ (b ++ r) ++ rest) := by
      rw [List.append_assoc]
      exact startsValue_of_spells hw _
    refine ⟨w ++ (b ++ r), ⟨[], w, b, r, rfl, blank_nil, hb, hw, hr⟩, ?_, hstart, by simp⟩
    rw [List.append_assoc, skipSpace_append ha, skipSpace_startsValue hstart]

theorem SpellsEntries.skipSpace {es : List (Node × Node)} (h : SpellsEntries es v) (rest : Text) :
    ∃ u, SpellsEntries es u ∧ Json.skipSpace (v ++ rest) = u ++ rest ∧ StartsValue (u ++ rest) ∧
      u.length ≤ v.length := by
  cases es with
  | nil => exact absurd h id
  | cons e es =>
    obtain ⟨key, value⟩ := e
    obtain ⟨a, k, b, c, w, d, r, rfl, ha, htext⟩ := h
    refine ⟨'"' :: (k ++ (b ++ ':' :: (c ++ (w ++ (d ++ r))))),
      ⟨[], k, b, c, w, d, r, rfl, blank_nil, htext⟩, ?_, ⟨'"', _, rfl, by decide⟩, by simp⟩
    rw [List.append_assoc, skipSpace_append ha]
    exact skipSpace_cons (by decide) _

theorem length_pos_of_spells (h : Spells n v) : 0 < v.length := by
  obtain ⟨c, r, hstart, -⟩ := startsValue_of_spells h []
  rw [List.append_nil] at hstart
  rw [hstart]
  exact Nat.succ_pos _

theorem readValue_blank {a : Text} (ha : Blank a) (fuel : Nat) (t : Text) :
    readValue (fuel + 1) (a ++ t) = readValue (fuel + 1) t := by
  rw [readValue, skipSpace_append ha, readValue]

theorem skipSpace_skipSpace (t : Text) : Json.skipSpace (Json.skipSpace t) = Json.skipSpace t :=
  List.dropWhile_idempotent isSpace t

/-- Blanks behind an opening bracket or brace do not matter. -/
theorem readValue_open {c : Char} (hc : c = '[' ∨ c = '\x7b') (fuel : Nat) (t : Text) :
    readValue (fuel + 1) (c :: t) = readValue (fuel + 1) (c :: Json.skipSpace t) := by
  rcases hc with rfl | rfl
  · rw [readValue, readValue, skipSpace_cons (by decide), skipSpace_cons (by decide)]
    simp only [skipSpace_skipSpace]
  · rw [readValue, readValue, skipSpace_cons (by decide), skipSpace_cons (by decide)]
    simp only [skipSpace_skipSpace]

theorem readValue_emptyArray {b : Text} (hb : Blank b) (fuel : Nat) (rest : Text) :
    readValue (fuel + 1) ('[' :: (b ++ ']' :: rest)) = (.sequence [], some rest) := by
  rw [readValue_open (.inl rfl), skipSpace_append hb, skipSpace_cons (by decide), readValue,
    skipSpace_cons (by decide)]
  simp only [skipSpace_cons (by decide : isSpace ']' = false)]

theorem readValue_emptyObject {b : Text} (hb : Blank b) (fuel : Nat) (rest : Text) :
    readValue (fuel + 1) ('\x7b' :: (b ++ '\x7d' :: rest)) = (.mapping [], some rest) := by
  rw [readValue_open (.inr rfl), skipSpace_append hb, skipSpace_cons (by decide), readValue,
    skipSpace_cons (by decide)]
  simp only [skipSpace_cons (by decide : isSpace '\x7d' = false)]

mutual

/-- A text is read as the tree that it writes. -/
theorem readValue_spells : (n : Node) → (v : Text) → Spells n v → (fuel : Nat) → (a rest : Text) →
    Blank a → v.length ≤ fuel → EndsNumber rest →
    readValue fuel (a ++ (v ++ rest)) = (n, some rest)
  | n, v, h, 0, a, rest, ha, hfuel, hrest => by
    have := length_pos_of_spells h
    omega
  | .atom source value, v, h, fuel + 1, a, rest, ha, hfuel, hrest => by
    rw [readValue_blank ha]
    exact SpellsScalar.read h fuel hrest
  | .unreadable, v, h, fuel + 1, a, rest, ha, hfuel, hrest => by
    rw [readValue_blank ha]
    exact SpellsScalar.read h fuel hrest
  | .sequence items, v, h, fuel + 1, a, rest, ha, hfuel, hrest => by
    obtain ⟨r, rfl, ⟨rfl, b, hb, rfl⟩ | hr⟩ := h
    · rw [readValue_blank ha, List.cons_append, List.append_assoc]
      exact readValue_emptyArray hb fuel rest
    · obtain ⟨u, hu, hskip, hstart, hlength⟩ := hr.skipSpace rest
      have hitems := readItems_spells items u hu fuel rest
        (Nat.le_trans hlength (Nat.le_of_succ_le_succ hfuel))
      rw [readValue_blank ha, List.cons_append, readValue_open (.inl rfl), hskip]
      exact readValue_array hstart hitems
  | .mapping es, v, h, fuel + 1, a, rest, ha, hfuel, hrest => by
    obtain ⟨r, rfl, ⟨rfl, b, hb, rfl⟩ | hr⟩ := h
    · rw [readValue_blank ha, List.cons_append, List.append_assoc]
      exact readValue_emptyObject hb fuel rest
    · obtain ⟨u, hu, hskip, hstart, hlength⟩ := hr.skipSpace rest
      have hentries := readEntries_spells es u hu fuel rest
        (Nat.le_trans hlength (Nat.le_of_succ_le_succ hfuel))
      rw [readValue_blank ha, List.cons_append, readValue_open (.inr rfl), hskip]
      exact readValue_object hstart hentries
  | .cast _ _ _ _, _, h, _, _, _, _, _, _ => absurd h id
  | .tagged _ _, _, h, _, _, _, _, _, _ => absurd h id
  | .reference _, _, h, _, _, _, _, _, _ => absurd h id
  | .broken, _, h, _, _, _, _, _, _ => absurd h id

theorem readItems_spells : (items : List Node) → (v : Text) → SpellsItems items v → (fuel : Nat) →
    (rest : Text) → v.length ≤ fuel → readItems fuel (v ++ rest) = (items, some rest)
  | [], _, h, _, _, _ => absurd h id
  | node :: items, t, h, 0, rest, hfuel => by
    obtain ⟨a, v, b, r, rfl, ha, hb, hv, hr⟩ := h
    have := length_pos_of_spells hv
    simp only [List.length_append] at hfuel
    omega
  | node :: items, t, h, fuel + 1, rest, hfuel => by
    obtain ⟨a, v, b, r, rfl, ha, hb, hv, hr⟩ := h
    rw [List.length_append, List.length_append, List.length_append] at hfuel
    rw [List.append_assoc, List.append_assoc, List.append_assoc, readItems]
    rcases hr with ⟨rfl, rfl⟩ | ⟨s, rfl, hs⟩
    · have hvalue := readValue_spells node v hv fuel a (b ++ ([']'] ++ rest)) ha
        (by rw [List.length_singleton] at hfuel; omega)
        (endsNumber_blank hb (endsNumber_cons (by decide) rest))
      rw [hvalue]
      simp only [skipSpace_append hb]
      rfl
    · rw [List.length_cons] at hfuel
      have hvalue := readValue_spells node v hv fuel a (b ++ (',' :: s ++ rest)) ha (by omega)
        (endsNumber_blank hb (endsNumber_cons (by decide) _))
      have hitems := readItems_spells items s hs fuel rest (by omega)
      rw [hvalue]
      simp only [skipSpace_append hb, List.cons_append,
        skipSpace_cons (by decide : isSpace ',' = false), hitems]

theorem readEntries_spells : (es : List (Node × Node)) → (v : Text) → SpellsEntries es v →
    (fuel : Nat) → (rest : Text) → v.length ≤ fuel →
    readEntries fuel (v ++ rest) = (es, some rest)
  | [], _, h, _, _, _ => absurd h id
  | (key, value) :: es, t, h, 0, rest, hfuel => by
    obtain ⟨a, k, b, c, v, d, r, rfl, -⟩ := h
    simp at hfuel
  | (key, value) :: es, t, h, fuel + 1, rest, hfuel => by
    obtain ⟨a, k, b, c, v, d, r, rfl, ha, hb, hc, hd, hkey, hv, hr⟩ := h
    simp only [List.length_append, List.length_cons] at hfuel
    obtain ⟨k', hk, hread⟩ := readText_lexeme hkey
    rw [List.append_nil] at hk
    subst hk
    have htext : a ++ ('"' :: (k ++ (b ++ ':' :: (c ++ (v ++ (d ++ r)))))) ++ rest =
        a ++ ('"' :: (k ++ (b ++ ':' :: (c ++ (v ++ (d ++ (r ++ rest))))))) := by simp
    rw [htext, readEntries, skipSpace_append ha, skipSpace_cons (by decide)]
    simp only [hread, skipSpace_append hb, skipSpace_cons (by decide : isSpace ':' = false)]
    rcases hr with ⟨rfl, rfl⟩ | ⟨s, rfl, hs⟩
    · have hvalue := readValue_spells value v hv fuel c (d ++ (['\x7d'] ++ rest)) hc (by omega)
        (endsNumber_blank hd (endsNumber_cons (by decide) rest))
      rw [hvalue]
      simp only [skipSpace_append hd]
      rfl
    · rw [List.length_cons] at hfuel
      have hvalue := readValue_spells value v hv fuel c (d ++ (',' :: s ++ rest)) hc (by omega)
        (endsNumber_blank hd (endsNumber_cons (by decide) _))
      have hentries := readEntries_spells es s hs fuel rest (by omega)
      rw [hvalue]
      simp only [skipSpace_append hd, List.cons_append,
        skipSpace_cons (by decide : isSpace ',' = false), hentries]

end

end Reading

section Writing

variable {rest : Text}

theorem SpellsItems.blank {a v : Text} {items : List Node} (ha : Blank a) (h : SpellsItems items v) :
    SpellsItems items (a ++ v) := by
  cases items with
  | nil => exact absurd h id
  | cons node items =>
    obtain ⟨b, w, c, r, rfl, hb, htext⟩ := h
    exact ⟨a ++ b, w, c, r, (List.append_assoc a b _).symm, ha.append hb, htext⟩

theorem SpellsEntries.blank {a v : Text} {es : List (Node × Node)} (ha : Blank a)
    (h : SpellsEntries es v) : SpellsEntries es (a ++ v) := by
  cases es with
  | nil => exact absurd h id
  | cons e es =>
    obtain ⟨key, value⟩ := e
    obtain ⟨b, k, c, d, w, f, r, rfl, hb, htext⟩ := h
    exact ⟨a ++ b, k, c, d, w, f, r, (List.append_assoc a b _).symm, ha.append hb, htext⟩

theorem spellsScalar_of_readWord {word t : Text} {value : Atom} {n : Node}
    (hword : SpellsScalar (.atom word value) word) (h : readWord word value t = (n, some rest)) :
    t = word ++ rest ∧ SpellsScalar n word := by
  rw [readWord] at h
  split at h
  · next r hr =>
    cases h
    exact ⟨Text.eq_append_of_after? hr, hword⟩
  · cases h

/-- A text between quotes is a text, or can only be passed over. -/
theorem node_of_readText {n : Node} {t : Text} (h : readText t = (n, some rest)) :
    (∃ s, n = .atom s (.text s)) ∨ n = .unreadable := by
  unfold readText at h
  split at h
  · cases h
    exact .inl ⟨_, rfl⟩
  · cases h
    exact .inr rfl
  · cases h

theorem spells_of_scalar {n : Node} {v : Text} (h : SpellsScalar n v) : Spells n v := by
  cases h with
  | null => exact .null
  | true => exact .true
  | false => exact .false
  | number h =>
    obtain ⟨places, behind, exponent, hne, hzero, hplaces, hexponent⟩ := parts_of_readNumber h
    have hread := h.symm.trans (readNumber_of_parts hne hzero hplaces hexponent)
    cases hnumber : number? (splitSign v).1 (spanDigits (splitSign v).2).1 places exponent with
    | none =>
      rw [hnumber] at hread
      obtain rfl : n = .unreadable := (Prod.mk.inj hread).1
      exact .number h
    | some m =>
      rw [hnumber] at hread
      obtain rfl : n = .atom _ (.number m) := (Prod.mk.inj hread).1
      exact .number h
  | text h =>
    rcases node_of_readText h with ⟨s, rfl⟩ | rfl
    · exact .text h
    · exact .text h

/-- With so much fuel, a value that is read to its end is written as it was read. -/
def ValuesSpelled (fuel : Nat) : Prop :=
  ∀ t n rest, readValue fuel t = (n, some rest) → ∃ a v, t = a ++ (v ++ rest) ∧ Blank a ∧ Spells n v

/-- With so much fuel, items that are read to their end are written as they were read. -/
def ItemsSpelled (fuel : Nat) : Prop :=
  ∀ t items rest, readItems fuel t = (items, some rest) →
    ∃ v, t = v ++ rest ∧ SpellsItems items v

/-- With so much fuel, entries that are read to their end are written as they were read. -/
def EntriesSpelled (fuel : Nat) : Prop :=
  ∀ t es rest, readEntries fuel t = (es, some rest) → ∃ v, t = v ++ rest ∧ SpellsEntries es v

theorem ValuesSpelled.succ {fuel : Nat} (ihItems : ItemsSpelled fuel)
    (ihEntries : EntriesSpelled fuel) : ValuesSpelled (fuel + 1) := by
  intro t n rest h
  obtain ⟨a, ha, ht⟩ := exists_blank t
  have hscalar : ∀ v, skipSpace t = v ++ rest → SpellsScalar n v →
      ∃ a v, t = a ++ (v ++ rest) ∧ Blank a ∧ Spells n v := fun v hv hn =>
    ⟨a, v, hv ▸ ht, ha, spells_of_scalar hn⟩
  rw [readValue] at h
  split at h
  · next r hr =>
    obtain ⟨v, rfl, hread⟩ := readText_lexeme h
    have hv := hread []
    rw [List.append_nil] at hv
    exact hscalar ('"' :: v) hr (.text hv)
  · next r hr =>
    -- The blanks behind the bracket are the first ones of the first item.
    obtain ⟨b, hb, hblank⟩ := exists_blank r
    split at h
    next items rest' hinner =>
    cases h
    split at hinner
    · next r' hr' =>
      cases hinner
      refine ⟨a, '[' :: (b ++ [']']), ?_, ha, b ++ [']'], rfl, .inl ⟨rfl, b, hb, rfl⟩⟩
      rw [ht, hr, hblank, hr']
      simp
    · obtain ⟨v, hv, hspells⟩ := ihItems _ _ _ hinner
      refine ⟨a, '[' :: (b ++ v), ?_, ha, b ++ v, rfl, .inr (hspells.blank hb)⟩
      rw [ht, hr, hblank, hv]
      simp
  · next r hr =>
    obtain ⟨b, hb, hblank⟩ := exists_blank r
    split at h
    next es rest' hinner =>
    cases h
    split at hinner
    · next r' hr' =>
      cases hinner
      refine ⟨a, '\x7b' :: (b ++ ['\x7d']), ?_, ha, b ++ ['\x7d'], rfl, .inl ⟨rfl, b, hb, rfl⟩⟩
      rw [ht, hr, hblank, hr']
      simp
    · obtain ⟨v, hv, hspells⟩ := ihEntries _ _ _ hinner
      refine ⟨a, '\x7b' :: (b ++ v), ?_, ha, b ++ v, rfl, .inr (hspells.blank hb)⟩
      rw [ht, hr, hblank, hv]
      simp
  · next r hr =>
    obtain ⟨hv, hn⟩ := spellsScalar_of_readWord .null h
    exact hscalar _ (hr.trans hv) hn
  · next r hr =>
    obtain ⟨hv, hn⟩ := spellsScalar_of_readWord .true h
    exact hscalar _ (hr.trans hv) hn
  · next r hr =>
    obtain ⟨hv, hn⟩ := spellsScalar_of_readWord .false h
    exact hscalar _ (hr.trans hv) hn
  · next c r _ _ _ _ _ _ hr =>
    split at h
    · obtain ⟨v, hv, hread⟩ := readNumber_lexeme h
      have hnumber := hread [] (by simp [EndsNumber])
      rw [List.append_nil] at hnumber
      exact hscalar v (hr.trans hv) (.number hnumber)
    · cases h
  · cases h

theorem ItemsSpelled.succ {fuel : Nat} (ihValue : ValuesSpelled fuel)
    (ihItems : ItemsSpelled fuel) : ItemsSpelled (fuel + 1) := by
  intro t items rest h
  rw [readItems] at h
  split at h
  · cases h
  · next node r hvalue =>
    obtain ⟨a, v, ht, ha, hv⟩ := ihValue _ _ _ hvalue
    obtain ⟨b, hb, hblank⟩ := exists_blank r
    split at h
    · next r' hr' =>
      cases h
      refine ⟨a ++ (v ++ (b ++ [']'])), ?_, a, v, b, [']'], rfl, ha, hb, hv, .inl ⟨rfl, rfl⟩⟩
      rw [ht, hblank, hr']
      simp
    · next r' hr' =>
      cases hitems : readItems fuel r' with
      | mk items' rest' =>
        rw [hitems] at h
        cases h
        obtain ⟨s, hs, hspells⟩ := ihItems _ _ _ hitems
        refine ⟨a ++ (v ++ (b ++ ',' :: s)), ?_, a, v, b, ',' :: s, rfl, ha, hb, hv,
          .inr ⟨s, rfl, hspells⟩⟩
        rw [ht, hblank, hr', hs]
        simp
    · cases h

theorem EntriesSpelled.succ {fuel : Nat} (ihValue : ValuesSpelled fuel)
    (ihEntries : EntriesSpelled fuel) : EntriesSpelled (fuel + 1) := by
  intro t es rest h
  obtain ⟨a, ha, ht⟩ := exists_blank t
  rw [readEntries] at h
  split at h
  · next r hr =>
    split at h
    · cases h
    · next name r₁ htext =>
      obtain ⟨k, hk, hread⟩ := readText_lexeme htext
      have hkey := hread []
      rw [List.append_nil] at hkey
      obtain ⟨b, hb, hblank⟩ := exists_blank r₁
      split at h
      · next r₂ hr₂ =>
        split at h
        · cases h
        · next value r₃ hvalue =>
          obtain ⟨c, v, hv, hc, hspells⟩ := ihValue _ _ _ hvalue
          obtain ⟨d, hd, hblank'⟩ := exists_blank r₃
          split at h
          · next r₄ hr₄ =>
            cases h
            refine ⟨a ++ ('"' :: (k ++ (b ++ ':' :: (c ++ (v ++ (d ++ ['\x7d'])))))), ?_,
              a, k, b, c, v, d, ['\x7d'], rfl, ha, hb, hc, hd, hkey, hspells, .inl ⟨rfl, rfl⟩⟩
            rw [ht, hr, hk, hblank, hr₂, hv, hblank', hr₄]
            simp
          · next r₄ hr₄ =>
            cases hentries : readEntries fuel r₄ with
            | mk es' rest' =>
              rw [hentries] at h
              cases h
              obtain ⟨s, hs, hmore⟩ := ihEntries _ _ _ hentries
              refine ⟨a ++ ('"' :: (k ++ (b ++ ':' :: (c ++ (v ++ (d ++ ',' :: s)))))), ?_,
                a, k, b, c, v, d, ',' :: s, rfl, ha, hb, hc, hd, hkey, hspells,
                .inr ⟨s, rfl, hmore⟩⟩
              rw [ht, hr, hk, hblank, hr₂, hv, hblank', hr₄, hs]
              simp
          · cases h
      · cases h
  · cases h

/-- What was read to its end is written as it was read. -/
theorem spells_of_read (fuel : Nat) :
    ValuesSpelled fuel ∧ ItemsSpelled fuel ∧ EntriesSpelled fuel := by
  induction fuel with
  | zero => simp [ValuesSpelled, ItemsSpelled, EntriesSpelled, readValue, readItems, readEntries]
  | succ fuel ih =>
    obtain ⟨ihValue, ihItems, ihEntries⟩ := ih
    exact ⟨.succ ihItems ihEntries, .succ ihValue ihItems, .succ ihValue ihEntries⟩

/-- A text is the document of the tree that it writes. -/
theorem document_spells {n : Node} {t : Text} (h : SpellsDocument n t) :
    document t = { root := n, complete := true } := by
  obtain ⟨a, v, b, rfl, ha, hb, hv⟩ := h
  have hends : EndsNumber b := by
    rw [← List.append_nil b]
    exact endsNumber_blank hb (by simp [EndsNumber])
  have hread := readValue_spells n v hv ((a ++ (v ++ b)).length + 1) a b ha
    (by simp only [List.length_append]; omega) hends
  have hskip : skipSpace b = [] := by
    rw [← List.append_nil b, skipSpace_append hb]
    rfl
  simp only [document, hread, hskip, List.isEmpty_nil]

/-- A text that is read to its end is written as the document that it is read as. -/
theorem spellsDocument_of_complete {t : Text} (h : (document t).complete = true) :
    SpellsDocument (document t).root t := by
  unfold document at h ⊢
  cases hread : readValue (t.length + 1) t with
  | mk root rest =>
    cases rest with
    | none => simp [hread] at h
    | some rest =>
      simp only [hread, List.isEmpty_iff] at h ⊢
      obtain ⟨a, v, ht, ha, hv⟩ := (spells_of_read _).1 _ _ _ hread
      obtain ⟨b, hb, hblank⟩ := exists_blank rest
      rw [h, List.append_nil] at hblank
      exact ⟨a, v, rest, ht, ha, hblank ▸ hb, hv⟩

end Writing

section Parts

variable {items : List Node} {es : List (Node × Node)}

/-- Every text can be written, as a name or as a value. -/
theorem exists_readText (t : Text) : ∃ k, readText k = (.atom t (.text t), some []) :=
  ⟨_, readText_flatMap t []⟩

theorem exists_spellsItems_iff (hne : items ≠ []) :
    (∃ r, SpellsItems items r) ↔ ∀ n ∈ items, ∃ v, Spells n v := by
  induction items with
  | nil => exact absurd rfl hne
  | cons n items ih =>
    rw [List.forall_mem_cons]
    constructor
    · rintro ⟨r, a, v, b, s, rfl, -, -, hv, ⟨rfl, -⟩ | ⟨s, rfl, hs⟩⟩
      · exact ⟨⟨v, hv⟩, by simp⟩
      · have hrest : items ≠ [] := by
          rintro rfl
          exact hs
        exact ⟨⟨v, hv⟩, (ih hrest).1 ⟨s, hs⟩⟩
    · rintro ⟨⟨v, hv⟩, hrest⟩
      cases items with
      | nil =>
        exact ⟨v ++ [']'], [], v, [], [']'], rfl, blank_nil, blank_nil, hv, .inl ⟨rfl, rfl⟩⟩
      | cons n' items =>
        obtain ⟨s, hs⟩ := (ih (by simp)).2 hrest
        exact ⟨v ++ ',' :: s, [], v, [], ',' :: s, rfl, blank_nil, blank_nil, hv,
          .inr ⟨s, rfl, hs⟩⟩

theorem exists_spellsEntries_iff (hne : es ≠ []) : (∃ r, SpellsEntries es r) ↔
    ∀ e ∈ es, (∃ k, readText k = (e.1, some [])) ∧ ∃ v, Spells e.2 v := by
  induction es with
  | nil => exact absurd rfl hne
  | cons e es ih =>
    obtain ⟨key, value⟩ := e
    rw [List.forall_mem_cons]
    constructor
    · rintro ⟨r, a, k, b, c, v, d, s, rfl, -, -, -, -, hk, hv, ⟨rfl, -⟩ | ⟨s, rfl, hs⟩⟩
      · exact ⟨⟨⟨k, hk⟩, v, hv⟩, by simp⟩
      · have hrest : es ≠ [] := by
          rintro rfl
          exact hs
        exact ⟨⟨⟨k, hk⟩, v, hv⟩, (ih hrest).1 ⟨s, hs⟩⟩
    · rintro ⟨⟨⟨k, hk⟩, v, hv⟩, hrest⟩
      cases es with
      | nil =>
        exact ⟨_, [], k, [], [], v, [], ['\x7d'], rfl, blank_nil, blank_nil, blank_nil, blank_nil,
          hk, hv, .inl ⟨rfl, rfl⟩⟩
      | cons e es =>
        obtain ⟨s, hs⟩ := (ih (by simp)).2 hrest
        exact ⟨_, [], k, [], [], v, [], ',' :: s, rfl, blank_nil, blank_nil, blank_nil, blank_nil,
          hk, hv, .inr ⟨s, rfl, hs⟩⟩

/-- A sequence can be written if its items can. -/
theorem exists_spells_sequence_iff :
    (∃ v, Spells (.sequence items) v) ↔ ∀ n ∈ items, ∃ v, Spells n v := by
  cases items with
  | nil =>
    have hempty : Spells (.sequence []) ['[', ']'] := ⟨_, rfl, .inl ⟨rfl, [], blank_nil, rfl⟩⟩
    exact ⟨fun _ => by simp, fun _ => ⟨_, hempty⟩⟩
  | cons n items =>
    rw [← exists_spellsItems_iff (by simp)]
    constructor
    · rintro ⟨v, r, rfl, ⟨hnil, -⟩ | hr⟩
      · cases hnil
      · exact ⟨r, hr⟩
    · rintro ⟨r, hr⟩
      exact ⟨'[' :: r, r, rfl, .inr hr⟩

/-- A mapping can be written if its names and values can. -/
theorem exists_spells_mapping_iff : (∃ v, Spells (.mapping es) v) ↔
    ∀ e ∈ es, (∃ k, readText k = (e.1, some [])) ∧ ∃ v, Spells e.2 v := by
  cases es with
  | nil =>
    have hempty : Spells (.mapping []) ['\x7b', '\x7d'] :=
      ⟨_, rfl, .inl ⟨rfl, [], blank_nil, rfl⟩⟩
    exact ⟨fun _ => by simp, fun _ => ⟨_, hempty⟩⟩
  | cons e es =>
    rw [← exists_spellsEntries_iff (by simp)]
    constructor
    · rintro ⟨v, r, rfl, ⟨hnil, -⟩ | hr⟩
      · cases hnil
      · exact ⟨r, hr⟩
    · rintro ⟨r, hr⟩
      exact ⟨'\x7b' :: r, r, rfl, .inr hr⟩

end Parts

end RouteModule.Json
