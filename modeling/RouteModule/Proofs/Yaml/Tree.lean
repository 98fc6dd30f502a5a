import RouteModule.Proofs.Yaml.Literal
import RouteModule.Proofs.Yaml.Quoted
import RouteModule.Proofs.Yaml.Scanner
import RouteModule.Yaml.Tree

/-!
Every text can be the value of an entry: in each of the four styles the scalar that is read from
what is written is the text. A YAML text of entries is read as a document that has them, each with
what its scalars stand for.
-/

namespace RouteModule.Yaml

open Scanner

variable {total : Nat} {c : Cursor} {s : Scanner} {t rest : Text} {ts : List Token}

theorem isAllowed_of_isPrintable {d : Char} (h : isPrintable d = true) : isAllowed d = true := by
  have hvalid : d.toNat.isValidChar := d.valid
  simp only [isPrintable, isAllowed, Nat.isValidChar, Bool.or_eq_true, Bool.and_eq_true, beq_iff_eq,
    bne_iff_ne, decide_eq_true_eq] at h hvalid ⊢
  omega

/-- A plain scalar is written as it is. -/
theorem writes_plain (h : IsPlain t) : Writes (t ++ ['\n']) t .plain where
  allowed d hd := by
    rcases List.mem_append.1 hd with hd | hd
    · exact isAllowed_of_isPrintable (h.isPrintable d hd)
    · obtain rfl : d = '\n' := by simpa using hd
      rfl
  step {total c ts rest} hrest hat hcolumn := by
    obtain ⟨d, u, rfl⟩ := List.exists_cons_of_ne_nil h.ne_nil
    obtain ⟨hspace, hmark⟩ := h.head (d := d) rfl
    obtain ⟨hblank, hbreak⟩ := h.continues.line d List.mem_cons_self
    have hsolid : isBlank d = false ∧ isBreak d = false := ⟨hblank.trans hspace, hbreak⟩
    have hcomment : d ≠ '#' := by
      rintro rfl
      exact hmark (by decide)
    have hat' : c.At total (' ' :: (d :: u ++ '\n' :: rest)) := by
      rwa [List.append_assoc] at hat
    have hvalue : (c.skip 1).At total (d :: u ++ '\n' :: rest) := hat'.next
    have hcolumn' : 0 < (c.skip 1).column := Nat.succ_pos _
    obtain ⟨c', hplain, hat'', hzero⟩ := h.read hrest.startsSolid hvalue hcolumn'
    have hread : (behindColon (c.skip 1) ts).readToken? =
        some (atEntry true c' (.scalar (d :: u) .plain :: ts)) := by
      have hgap : d = '-' ∨ d = '?' ∨ d = ':' → atGap (u ++ '\n' :: rest) = false := fun hd =>
        atGap_append (h.behind_indicator hd) _
      rw [readToken?_plain hvalue.rest_eq rfl (atAnyMarker_of_column hcolumn') hsolid hmark hgap]
      change (plain? false 1 (c.skip 1)).bind _ = _
      rw [hplain]
      rfl
    exact ⟨_, step?_value hat' hsolid hcomment hread hat'', reaches_start hrest hat'' hzero⟩

theorem isAllowed_upperHex (width n : Nat) : ∀ e ∈ Text.upperHex width n, isAllowed e = true := by
  have hdigit : ∀ d < 16, isAllowed (Text.hexDigit d).toUpper = true := by decide
  induction width generalizing n with
  | zero => simp [Text.upperHex, Text.hexPadded, Text.asciiUpper]
  | succ width ih =>
    intro e he
    rw [Text.upperHex_succ] at he
    rcases List.mem_append.1 he with he | he
    · exact ih _ e he
    · rw [List.mem_singleton.1 he]
      exact hdigit _ (Nat.mod_lt n (by decide))

theorem isAllowed_escape (d : Char) : ∀ e ∈ escape d, isAllowed e = true := by
  have hnumber : ∀ mark : Char, isAllowed mark = true → ∀ width, ∀ e ∈ '\\' :: mark ::
      Text.upperHex width d.toNat, isAllowed e = true := by
    intro mark hmark width e he
    rcases List.mem_cons.1 he with rfl | he
    · rfl
    · rcases List.mem_cons.1 he with rfl | he
      · exact hmark
      · exact isAllowed_upperHex width _ e he
  unfold escape
  split
  case h_15 =>
    split
    · next hprint =>
      intro e he
      rw [List.mem_singleton.1 he]
      exact isAllowed_of_isPrintable hprint
    · unfold numberEscape
      split
      · exact hnumber 'x' (by decide) 2
      · split
        · exact hnumber 'u' (by decide) 4
        · exact hnumber 'U' (by decide) 8
  all_goals exact List.all_eq_true.1 (by decide)

theorem mem_singleBody {start : Bool} {e : Char} (h : e ∈ singleBody start t) :
    e = ' ' ∨ e = '\'' ∨ e ∈ t := by
  induction t generalizing start with
  | nil =>
    cases start with
    | true => exact .inl (by simpa [singleBody, indentation] using h)
    | false => cases h
  | cons d t ih =>
    rw [singleBody] at h
    split at h
    · rcases List.mem_cons.1 h with rfl | h
      · exact .inr (.inr List.mem_cons_self)
      · exact (ih h).imp_right (Or.imp_right (List.mem_cons_of_mem d))
    · rcases List.mem_append.1 h with h | h
      · rcases List.mem_append.1 h with h | h
        · cases start with
          | true => exact .inl (by simpa [indentation] using h)
          | false => cases h
        · split at h
          · exact .inr (.inl (by simpa using h))
          · exact .inr (.inr (by simp [List.mem_singleton.1 h]))
      · exact (ih h).imp_right (Or.imp_right (List.mem_cons_of_mem d))

theorem mem_literalBody {start : Bool} {e : Char} (h : e ∈ literalBody start t) :
    e = ' ' ∨ e ∈ t := by
  induction t generalizing start with
  | nil => cases h
  | cons d t ih =>
    rw [literalBody] at h
    split at h
    · rcases List.mem_cons.1 h with rfl | h
      · exact .inr List.mem_cons_self
      · exact (ih h).imp_right (List.mem_cons_of_mem d)
    · rcases List.mem_append.1 h with h | h
      · cases start with
        | true => exact .inl (by simpa [indentation] using h)
        | false => cases h
      · rcases List.mem_cons.1 h with rfl | h
        · exact .inr List.mem_cons_self
        · exact (ih h).imp_right (List.mem_cons_of_mem d)

theorem isAllowed_literalHeader (t : Text) : ∀ e ∈ literalHeader t, isAllowed e = true := by
  rw [literalHeader_eq]
  cases isHinted t with
  | true => cases chompOf t <;> exact List.all_eq_true.1 (by decide)
  | false => cases chompOf t <;> exact List.all_eq_true.1 (by decide)

/-- A quote starts a scalar. -/
theorem readToken?_quoted (single : Bool) (hat : s.cursor.At total (quoteOf single :: t))
    (hcolumn : 0 < s.cursor.column) :
    s.readToken? = s.readMark? fun c =>
      (quoted? single c).map fun r => (.scalar r.1 .quoted, r.2) := by
  have hmarker := atAnyMarker_of_column hcolumn
  rw [Cursor.atAnyMarker, Bool.or_eq_false_iff] at hmarker
  rw [readToken?, hat.rest_eq]
  cases single with
  | true =>
    have hquote : quoteOf true = '\'' := rfl
    rw [hquote]
    simp [hmarker]
  | false =>
    have hquote : quoteOf false = '"' := rfl
    rw [hquote]
    simp [hmarker]

/-- A bar starts a literal block. -/
theorem readToken?_literal (hat : s.cursor.At total ('|' :: t)) (hflow : s.inFlow = false)
    (hcolumn : 0 < s.cursor.column) : s.readToken? = s.readBlock? true := by
  have hmarker := atAnyMarker_of_column hcolumn
  rw [Cursor.atAnyMarker, Bool.or_eq_false_iff] at hmarker
  rw [readToken?, hat.rest_eq]
  simp [hmarker, hflow]

/-- What is read between quotes is the value. -/
theorem readToken?_behindColon {c' : Cursor} (ts : List Token) (single : Bool)
    (hat : c.At total (quoteOf single :: rest)) (hcolumn : 0 < c.column)
    (hquoted : quoted? single c = some (t, c')) :
    (behindColon c ts).readToken? = some (behindColon c' (.scalar t .quoted :: ts)) := by
  rw [readToken?_quoted single hat hcolumn]
  change ((quoted? single c).map _).bind _ = _
  rw [hquoted]
  rfl

/-- A text between single quotes is written. -/
theorem writes_single (h : Folds t) :
    Writes ('\'' :: singleBody false t ++ ['\'', '\n']) t .quoted where
  allowed d hd := by
    rcases List.mem_append.1 hd with hd | hd
    · rcases List.mem_cons.1 hd with rfl | hd
      · rfl
      · rcases mem_singleBody hd with rfl | rfl | hd
        · rfl
        · rfl
        · exact isAllowed_of_isPrintable (h.line d hd).1
    · have hend : ∀ e ∈ ['\'', '\n'], isAllowed e = true := List.all_eq_true.1 rfl
      exact hend d hd
  step {total c ts rest} hrest hat hcolumn := by
    have hat' : c.At total (' ' :: '\'' :: (singleBody false t ++ '\'' :: '\n' :: rest)) := by
      simpa using hat
    have hvalue : (c.skip 1).At total ('\'' :: singleBody false t ++ '\'' :: '\n' :: rest) :=
      hat'.next
    obtain ⟨c', hquoted, hat''⟩ := quoted?_single h (by simp) hvalue
    have hread := readToken?_behindColon ts true hvalue (Nat.succ_pos _) hquoted
    exact ⟨_, step?_value hat' (by decide) (by decide) hread hat'', reaches_feed hrest hat''⟩

/-- A text between double quotes is written. -/
theorem writes_double (t : Text) :
    Writes ('"' :: t.flatMap escape ++ ['"', '\n']) t .quoted where
  allowed d hd := by
    rcases List.mem_append.1 hd with hd | hd
    · rcases List.mem_cons.1 hd with rfl | hd
      · rfl
      · obtain ⟨e, -, he⟩ := List.mem_flatMap.1 hd
        exact isAllowed_escape e d he
    · have hend : ∀ e ∈ ['"', '\n'], isAllowed e = true := List.all_eq_true.1 rfl
      exact hend d hd
  step {total c ts rest} hrest hat hcolumn := by
    have hat' : c.At total (' ' :: '"' :: (t.flatMap escape ++ '"' :: '\n' :: rest)) := by
      simpa using hat
    have hvalue : (c.skip 1).At total ('"' :: t.flatMap escape ++ '"' :: '\n' :: rest) :=
      hat'.next
    obtain ⟨c', hquoted, hat''⟩ := quoted?_double hvalue
    have hread := readToken?_behindColon ts false hvalue (Nat.succ_pos _) hquoted
    exact ⟨_, step?_value hat' (by decide) (by decide) hread hat'', reaches_feed hrest hat''⟩

/-- A text is written as a literal block. -/
theorem writes_literal (hprint : ∀ d ∈ t, isPrintable d = true) (hne : t ≠ []) :
    Writes (literalHeader t ++ '\n' :: literalBody true t ++
      (if t.getLast?.any isBreak then [] else ['\n'])) t .literal where
  allowed d hd := by
    rcases List.mem_append.1 hd with hd | hd
    · rcases List.mem_append.1 hd with hd | hd
      · exact isAllowed_literalHeader t d hd
      · rcases List.mem_cons.1 hd with rfl | hd
        · rfl
        · rcases mem_literalBody hd with rfl | hd
          · rfl
          · exact isAllowed_of_isPrintable (hprint d hd)
    · split at hd
      · cases hd
      · rw [List.mem_singleton.1 hd]
        rfl
  step {total c ts rest} hrest hat hcolumn := by
    obtain ⟨signs, hsigns⟩ : ∃ signs, literalHeader t = '|' :: signs :=
      ⟨_, literalHeader_eq t⟩
    have hbody : c.At total (' ' :: (literalHeader t ++ '\n' :: (literalBody true t ++
        (if t.getLast?.any isBreak then [] else ['\n']) ++ rest))) := by
      simpa only [List.append_assoc, List.cons_append] using hat
    have hvalue := hbody.next
    obtain ⟨c', hblock, hat'', hzero⟩ := block?_literal hprint hne hrest.startsSolid hvalue
    rw [hsigns, List.cons_append] at hbody hvalue
    have hread : (behindColon (c.skip 1) ts).readToken? =
        some (atEntry true c' (.scalar t .literal :: ts)) := by
      rw [readToken?_literal hvalue rfl (Nat.succ_pos _)]
      change (block? true 0 (c.skip 1)).bind _ = _
      have hblock' : block? true 0 (c.skip 1) = some (t, c') := hblock
      rw [hblock']
      rfl
    exact ⟨_, step?_value hbody (by decide) (by decide) hread hat'',
      reaches_start hrest hat'' hzero⟩

/-- How a text is told from other scalars once it is read. -/
def TextStyle.style : TextStyle → Style
  | .plain => .plain
  | .single => .quoted
  | .double => .quoted
  | .literal => .literal

theorem printable_of_style (h : TextStyle.of t = .literal) :
    (∀ d ∈ t, isPrintable d = true) ∧ t ≠ [] := by
  unfold TextStyle.of at h
  split at h
  · next hfeed =>
    split at h
    · cases h
    · next hspecial =>
      simp only [isSpecial, Bool.or_eq_true, not_or, Bool.not_eq_true, Bool.not_eq_false']
        at hspecial
      refine ⟨List.all_eq_true.1 hspecial.1.1, ?_⟩
      rintro rfl
      cases hfeed
  · split at h
    · cases h
    · split at h <;> cases h

/-- Every text is written as a value. -/
theorem writes_valueText (t : Text) : Writes (valueText t) t (TextStyle.of t).style := by
  unfold valueText
  split
  · next h => rw [h]; exact writes_plain (.of_style h)
  · next h => rw [h]; exact writes_single (.of_style h)
  · next h => rw [h]; exact writes_double t
  · next h =>
    obtain ⟨hprint, hne⟩ := printable_of_style h
    rw [h]
    exact writes_literal hprint hne

theorem ofInteger?_ne_text (i : Int) (u : Text) : ofInteger? i ≠ some (.text u) := by
  unfold ofInteger?
  split
  · simp
  · split
    · simp
    · split <;> simp

theorem float?_ne_text (t u : Text) : float? t ≠ some (.text u) := by
  unfold float?
  split
  · simp
  · simp

/-- A plain scalar that is a text is its own. -/
theorem eq_of_ofPlain {u : Text} (h : ofPlain t = .text u) : t = u := by
  unfold ofPlain at h
  split at h
  · cases h
  · split at h
    · cases h
    · split at h
      · next a ha =>
        obtain ⟨i, -, hi⟩ := Option.bind_eq_some_iff.1 ha
        exact absurd (h ▸ hi) (ofInteger?_ne_text i u)
      · split at h
        · exact Atom.text.inj h
        · cases hfloat : float? t with
          | none =>
            rw [hfloat] at h
            exact Atom.text.inj h
          | some a =>
            rw [hfloat] at h
            exact absurd (h ▸ hfloat) (float?_ne_text t u)

/-- A text that is written plain stands for itself. -/
theorem ofPlain_of_style (h : TextStyle.of t = .plain) : ofPlain t = .text t := by
  have hmisread : isMisread t = false := by
    unfold TextStyle.of at h
    split at h
    · split at h <;> cases h
    · split at h
      · cases h
      · split at h
        · cases h
        · next hother =>
          simp only [Bool.or_eq_true, not_or, Bool.not_eq_true] at hother
          exact hother.1.1.1
  unfold isMisread at hmisread
  split at hmisread
  · next u hu => rw [hu, eq_of_ofPlain hu]
  · cases hmisread

end RouteModule.Yaml

namespace RouteModule.Yaml

/-- An entry as nodes: a plain scalar may stand for something else than its text. -/
def Entry.node (e : Entry) : Node × Node :=
  (scalarNode none e.key .plain, scalarNode none e.value e.style)

/-- A text is read as itself in the style that it is written in. -/
theorem scalarNode_of_style (t : Text) :
    scalarNode none t (TextStyle.of t).style = .atom t (.text t) := by
  cases h : TextStyle.of t with
  | plain => exact congrArg (Node.atom t) (ofPlain_of_style h)
  | single => rfl
  | double => rfl
  | literal => rfl

section Reading

variable {handles : List Handle} {rest : List Token} {anchors : List (Text × Nat)}
  {targets : List (Nat × Node)}

theorem readEntries_end (fuel : Nat) :
    readEntries handles (fuel + 1) ⟨.blockEnd :: rest, anchors, targets⟩ =
      ([], ⟨rest, anchors, targets⟩) := by
  delta readEntries
  rfl

theorem readEntries_cons (fuel : Nat) (e : Entry) :
    readEntries handles (fuel + 3) ⟨e.tokens ++ rest, anchors, targets⟩ =
      (e.node :: (readEntries handles (fuel + 2) ⟨rest, anchors, targets⟩).1,
        (readEntries handles (fuel + 2) ⟨rest, anchors, targets⟩).2) := by
  delta readEntries
  rfl

/-- The entries of a mapping are read up to its end. -/
theorem readEntries_entries {es : List Entry} {fuel : Nat} (hfuel : es.length + 3 ≤ fuel) :
    readEntries handles fuel ⟨es.flatMap Entry.tokens ++ .blockEnd :: rest, anchors, targets⟩ =
      (es.map Entry.node, ⟨rest, anchors, targets⟩) := by
  induction es generalizing fuel with
  | nil =>
    obtain ⟨fuel, rfl⟩ := Nat.exists_eq_add_of_le' hfuel
    exact readEntries_end (fuel + 2)
  | cons e es ih =>
    rw [List.length_cons] at hfuel
    obtain ⟨fuel, rfl⟩ := Nat.exists_eq_add_of_le' (show 3 ≤ fuel by omega)
    rw [List.flatMap_cons, List.append_assoc, readEntries_cons, ih (by omega), List.map_cons]

theorem readNode_blockMapping (fuel : Nat) :
    readNode handles true false (fuel + 1) ⟨.blockMapping :: rest, anchors, targets⟩ =
      (.mapping (readEntries handles fuel ⟨rest, anchors, targets⟩).1,
        (readEntries handles fuel ⟨rest, anchors, targets⟩).2) := by
  delta readNode readEntries
  rfl

theorem readRoot_blockMapping (ts : List Token) :
    readRoot (.blockMapping :: ts) =
      readNode defaultHandles true false (4 * ts.length + 11 + 1) ⟨.blockMapping :: ts, [], []⟩ := by
  have hfuel : 4 * (Token.blockMapping :: ts).length + 8 = 4 * ts.length + 11 + 1 := by
    rw [List.length_cons]
    omega
  rw [← hfuel]
  rfl

theorem length_le_tokens (es : List Entry) : es.length ≤ (es.flatMap Entry.tokens).length := by
  induction es with
  | nil => exact Nat.le_refl _
  | cons e es ih =>
    rw [List.flatMap_cons, List.length_append, List.length_cons, Entry.tokens]
    simp only [List.length_cons]
    omega

/-- A text of entries is read as the mapping of them. -/
theorem document_entries {es : List Entry} (hne : es ≠ []) (hes : ∀ e ∈ es, e.IsRead) :
    (document (es.flatMap Entry.text)).root = .mapping (es.map Entry.node) ∧
      (document (es.flatMap Entry.text)).complete = true := by
  have hroot : readRoot (tokens (es.flatMap Entry.text)) =
      (.mapping (es.map Entry.node), ⟨[.streamEnd], [], []⟩) := by
    have hlength := length_le_tokens es
    rw [tokens_entries hne hes, List.cons_append, readRoot_blockMapping, readNode_blockMapping,
      readEntries_entries]
    rw [List.length_append]
    omega
  rw [document, hroot]
  exact ⟨rfl, rfl⟩

end Reading

end RouteModule.Yaml
