import RouteModule.Proofs.Overlap.Lexemes

/-!
The texts that both formats read. `SpellsIn strict` says of a tree and a text that the text writes the
tree as JSON and, where `strict` holds, keeps to what YAML reads the same way: no text between quotes
has half of a character or a line break, and the colon of a name is near it.
-/

namespace RouteModule.Yaml

open Json (Blank Spells SpellsItems SpellsEntries SpellsDocument SpellsScalar)

variable {strict : Prop}

/-- If a text is written between quotes, it is clear what it is. -/
def QuotedClearly (v : Text) : Prop := ∀ k, v = '"' :: k → IsClear k

mutual

/-- A text writes a tree. -/
def SpellsIn (strict : Prop) : Node → Text → Prop
  | .atom source value, v => SpellsScalar (.atom source value) v ∧ (strict → QuotedClearly v)
  | .unreadable, v => SpellsScalar .unreadable v ∧ (strict → QuotedClearly v)
  | .sequence items, v =>
    ∃ r, v = '[' :: r ∧
      ((items = [] ∧ ∃ a, Blank a ∧ r = a ++ [']']) ∨ SpellsItemsIn strict items r)
  | .mapping es, v =>
    ∃ r, v = '\x7b' :: r ∧
      ((es = [] ∧ ∃ a, Blank a ∧ r = a ++ ['\x7d']) ∨ SpellsEntriesIn strict es r)
  | .cast _ _ _ _, _ => False
  | .tagged _ _, _ => False
  | .reference _, _ => False
  | .broken, _ => False

/-- A text writes items, of which there is at least one, up to the bracket behind them. -/
def SpellsItemsIn (strict : Prop) : List Node → Text → Prop
  | [], _ => False
  | node :: rest, t =>
    ∃ a v b r, t = a ++ (v ++ (b ++ r)) ∧ Blank a ∧ Blank b ∧ SpellsIn strict node v ∧
      ((rest = [] ∧ r = [']']) ∨ ∃ s, r = ',' :: s ∧ SpellsItemsIn strict rest s)

/-- A text writes entries, of which there is at least one, up to the brace behind them. -/
def SpellsEntriesIn (strict : Prop) : List (Node × Node) → Text → Prop
  | [], _ => False
  | (key, value) :: rest, t =>
    ∃ a k b c v d r, t = a ++ ('"' :: (k ++ (b ++ ':' :: (c ++ (v ++ (d ++ r)))))) ∧
      (Blank a ∧ Blank b ∧ Blank c ∧ Blank d) ∧ Json.readText k = (key, some []) ∧
      (strict → IsClear k ∧ OnLine k b) ∧ SpellsIn strict value v ∧
      ((rest = [] ∧ r = ['\x7d']) ∨ ∃ s, r = ',' :: s ∧ SpellsEntriesIn strict rest s)

end

/-- A text is a document with one tree in it, with no tab where YAML reads none. -/
def SpellsDocumentIn (strict : Prop) (n : Node) (t : Text) : Prop :=
  ∃ a v b, t = a ++ (v ++ b) ∧ Blank a ∧ Blank b ∧ SpellsIn strict n v ∧
    (strict → '\t' ∉ a ∧ '\t' ∉ b.dropWhile isBlank)

mutual

/-- Every text that JSON reads is written loosely. -/
theorem spellsIn_of_spells : (n : Node) → (v : Text) → Spells n v → SpellsIn False n v
  | .atom source value, v, h => ⟨h, False.elim⟩
  | .unreadable, v, h => ⟨h, False.elim⟩
  | .sequence items, v, h => by
    obtain ⟨r, rfl, hempty | hitems⟩ := h
    · exact ⟨r, rfl, .inl hempty⟩
    · exact ⟨r, rfl, .inr (spellsItemsIn_of_spells items r hitems)⟩
  | .mapping es, v, h => by
    obtain ⟨r, rfl, hempty | hentries⟩ := h
    · exact ⟨r, rfl, .inl hempty⟩
    · exact ⟨r, rfl, .inr (spellsEntriesIn_of_spells es r hentries)⟩
  | .cast _ _ _ _, _, h => h
  | .tagged _ _, _, h => h
  | .reference _, _, h => h
  | .broken, _, h => h

theorem spellsItemsIn_of_spells : (items : List Node) → (v : Text) → SpellsItems items v →
    SpellsItemsIn False items v
  | [], _, h => h
  | node :: items, t, h => by
    obtain ⟨a, v, b, r, rfl, ha, hb, hv, hr⟩ := h
    refine ⟨a, v, b, r, rfl, ha, hb, spellsIn_of_spells node v hv, ?_⟩
    rcases hr with hlast | ⟨s, rfl, hs⟩
    · exact .inl hlast
    · exact .inr ⟨s, rfl, spellsItemsIn_of_spells items s hs⟩

theorem spellsEntriesIn_of_spells : (es : List (Node × Node)) → (v : Text) → SpellsEntries es v →
    SpellsEntriesIn False es v
  | [], _, h => h
  | (key, value) :: es, t, h => by
    obtain ⟨a, k, b, c, v, d, r, rfl, ha, hb, hc, hd, hkey, hv, hr⟩ := h
    refine ⟨a, k, b, c, v, d, r, rfl, ⟨ha, hb, hc, hd⟩, hkey, False.elim,
      spellsIn_of_spells value v hv, ?_⟩
    rcases hr with hlast | ⟨s, rfl, hs⟩
    · exact .inl hlast
    · exact .inr ⟨s, rfl, spellsEntriesIn_of_spells es s hs⟩

end

mutual

/-- However a tree is written, JSON reads it. -/
theorem spells_of_spellsIn : (n : Node) → (v : Text) → SpellsIn strict n v → Spells n v
  | .atom source value, v, h => h.1
  | .unreadable, v, h => h.1
  | .sequence items, v, h => by
    obtain ⟨r, rfl, hempty | hitems⟩ := h
    · exact ⟨r, rfl, .inl hempty⟩
    · exact ⟨r, rfl, .inr (spellsItems_of_spellsIn items r hitems)⟩
  | .mapping es, v, h => by
    obtain ⟨r, rfl, hempty | hentries⟩ := h
    · exact ⟨r, rfl, .inl hempty⟩
    · exact ⟨r, rfl, .inr (spellsEntries_of_spellsIn es r hentries)⟩
  | .cast _ _ _ _, _, h => h
  | .tagged _ _, _, h => h
  | .reference _, _, h => h
  | .broken, _, h => h

theorem spellsItems_of_spellsIn : (items : List Node) → (v : Text) →
    SpellsItemsIn strict items v → SpellsItems items v
  | [], _, h => h
  | node :: items, t, h => by
    obtain ⟨a, v, b, r, rfl, ha, hb, hv, hr⟩ := h
    refine ⟨a, v, b, r, rfl, ha, hb, spells_of_spellsIn node v hv, ?_⟩
    rcases hr with hlast | ⟨s, rfl, hs⟩
    · exact .inl hlast
    · exact .inr ⟨s, rfl, spellsItems_of_spellsIn items s hs⟩

theorem spellsEntries_of_spellsIn : (es : List (Node × Node)) → (v : Text) →
    SpellsEntriesIn strict es v → SpellsEntries es v
  | [], _, h => h
  | (key, value) :: es, t, h => by
    obtain ⟨a, k, b, c, v, d, r, rfl, ⟨ha, hb, hc, hd⟩, hkey, -, hv, hr⟩ := h
    refine ⟨a, k, b, c, v, d, r, rfl, ha, hb, hc, hd, hkey, spells_of_spellsIn value v hv, ?_⟩
    rcases hr with hlast | ⟨s, rfl, hs⟩
    · exact .inl hlast
    · exact .inr ⟨s, rfl, spellsEntries_of_spellsIn es s hs⟩

end

theorem SpellsDocumentIn.spells {n : Node} {t : Text} (h : SpellsDocumentIn strict n t) :
    SpellsDocument n t := by
  obtain ⟨a, v, b, rfl, ha, hb, hv, -⟩ := h
  exact ⟨a, v, b, rfl, ha, hb, spells_of_spellsIn n v hv⟩

theorem spellsDocumentIn_of_spells {n : Node} {t : Text} (h : SpellsDocument n t) :
    SpellsDocumentIn False n t := by
  obtain ⟨a, v, b, rfl, ha, hb, hv⟩ := h
  exact ⟨a, v, b, rfl, ha, hb, spellsIn_of_spells n v hv, False.elim⟩

theorem SpellsBare.startsToken {n : Node} {v : Text} (h : SpellsBare n v) (rest : Text) :
    StartsToken (v ++ rest) := by
  have hbare := h.isBare
  obtain ⟨d, u, rfl, -⟩ := hbare.head
  obtain ⟨hblank, hbreak⟩ := hbare.solid d List.mem_cons_self
  exact startsToken_cons ⟨hblank, hbreak, hbare.ne List.mem_cons_self (by decide) (by decide),
    hbare.ne List.mem_cons_self (by decide) (by decide)⟩ _

/-- A scalar is written without quotes or between them. -/
theorem bare_or_text {n : Node} {v : Text} (h : SpellsScalar n v) :
    SpellsBare n v ∨ ∃ k, v = '"' :: k ∧ Json.readText k = (n, some []) := by
  cases h with
  | null => exact .inl ⟨.null, by simp⟩
  | true => exact .inl ⟨.true, by simp⟩
  | false => exact .inl ⟨.false, by simp⟩
  | number h =>
    obtain ⟨m, hvalid, rfl, -⟩ := Json.numeral_of_number h
    refine .inl ⟨.number h, fun hquote => ?_⟩
    exact (isBare_numeral hvalid).ne (List.mem_of_mem_head? hquote) (by decide) (by decide) rfl
  | text h => exact .inr ⟨_, rfl, h⟩

theorem startsToken_of_spellsScalar {n : Node} {v : Text} (h : SpellsScalar n v) (rest : Text) :
    StartsToken (v ++ rest) := by
  rcases bare_or_text h with hbare | ⟨k, rfl, -⟩
  · exact hbare.startsToken rest
  · exact startsToken_cons (by decide) _

theorem startsToken_of_spellsIn {n : Node} {v : Text} (h : SpellsIn strict n v) (rest : Text) :
    StartsToken (v ++ rest) := by
  cases n with
  | atom source value => exact startsToken_of_spellsScalar h.1 rest
  | unreadable => exact startsToken_of_spellsScalar h.1 rest
  | sequence items =>
    obtain ⟨r, rfl, -⟩ := h
    exact startsToken_cons (by decide) _
  | mapping es =>
    obtain ⟨r, rfl, -⟩ := h
    exact startsToken_cons (by decide) _
  | cast source absentable direct value => exact h.elim
  | tagged tag node => exact h.elim
  | reference id => exact h.elim
  | broken => exact h.elim

end RouteModule.Yaml
