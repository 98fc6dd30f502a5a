import RouteModule.Proofs.Template.Lookup
import RouteModule.Proofs.Template.Operand
import RouteModule.Template.Piece

/-!
Tags that print a variable by its name alone. The name is read as the variable, unless it starts with a
word for a truth value. The language does not ask for such a word to end where it is read: the truth value
is taken, the rest of the name is left over, and there is no tag.
-/

namespace RouteModule.Template

open Reader

/-- A text that is read as the name of a variable: a name that does not start with a digit. -/
structure IsIdentifier (t : Text) : Prop where
  isName : IsName t
  start : t.head?.all fun c => c.isAlpha || c == '_'

/-- The words that are read as truth values, each with what it is read as. -/
def truths : List (String × Expr) :=
  [("true", .bool true), ("false", .bool false), ("True", .bool true), ("False", .bool false)]

/-- A text starts with a truth value. -/
def startsWithTruth (t : Text) : Bool := truths.any fun w => Text.startsWith w.1.toList t

/-- The name of a variable that a tag can be asked to print. No expression starts with a word of the
language but negations and truth values; and one name is kept for all variables together. -/
structure IsKey (key : Text) : Prop where
  isIdentifier : IsIdentifier key
  ne_negation : key ≠ "not".toList
  ne_truth : ∀ w ∈ truths, key ≠ w.1.toList
  ne_reserved : key ≠ "__tera_context".toList

/-- The end of a tag, in front of a text. -/
def closed (rest : Text) : Text := " \x7d\x7d".toList ++ rest

section Names

variable {name t w : Text} {c d : Char}

theorem ne_of_isNameChar (hc : isNameChar c = true) (hd : isNameChar d = false) : c ≠ d := by
  rintro rfl
  rw [hc] at hd
  cases hd

theorem isSpace_of_isNameChar (hc : isNameChar c = true) : isSpace c = false := by
  have hne : ∀ d, isNameChar d = false → c ≠ d := fun d => ne_of_isNameChar hc
  simp [isSpace, hne ' ' (by decide), hne '\t' (by decide), hne '\r' (by decide), hne '\n' (by decide)]

theorem isNameChar_of_mem_signs : ∀ d ∈ signs, isNameChar d = false := by
  have hall : (signs.all fun d => !isNameChar d) = true := by decide
  simpa only [List.all_eq_true, Bool.not_eq_true'] using hall

theorem IsName.exists_cons (h : IsName name) : ∃ c t, name = c :: t ∧ isNameChar c = true := by
  obtain ⟨c, t, rfl⟩ := List.exists_cons_of_ne_nil h.1
  exact ⟨c, t, rfl, h.2 c List.mem_cons_self⟩

/-- Blanks end in front of a name. -/
theorem IsName.skip (h : IsName name) (t : Text) : skip (name ++ t) = name ++ t := by
  obtain ⟨c, name, rfl, hc⟩ := h.exists_cons
  simp [Reader.skip, isSpace_of_isNameChar hc]

/-- No mark is read where a name stands but one that starts as names do. -/
theorem IsName.mark (h : IsName name) {m : String} {ds : List Char} (hm : m.toList = d :: ds)
    (hd : isNameChar d = false) (t : Text) : mark m (name ++ t) = none := by
  refine mark_of_ne hm fun c hc => ?_
  rw [h.skip] at hc
  obtain ⟨x, name, rfl, hx⟩ := h.exists_cons
  obtain rfl : x = c := Option.some.inj hc
  exact ne_of_isNameChar hx hd

/-- An expression does not go on by a sign where a name goes on. -/
theorem IsName.ends (h : IsName name) (t : Text) : Ends (name ++ t) := by
  intro c hc hsign
  rw [h.skip] at hc
  obtain ⟨x, name, rfl, hx⟩ := h.exists_cons
  obtain rfl : x = c := Option.some.inj hc
  exact ne_of_isNameChar hx (isNameChar_of_mem_signs x hsign) rfl

theorem ends_closed (rest : Text) : Ends (closed rest) := by
  intro c hc
  obtain rfl : '\x7d' = c := Option.some.inj hc
  decide

/-- A word is found at the start of a name within the name. -/
theorem after?_name (hw : ∀ c ∈ w, isNameChar c = true) (name rest : Text) :
    Text.after? w (name ++ closed rest) = (Text.after? w name).map (· ++ closed rest) := by
  induction w generalizing name with
  | nil => rfl
  | cons d w ih =>
    obtain ⟨hd, hw⟩ := List.forall_mem_cons.1 hw
    cases name with
    | nil =>
      have hspace : d ≠ ' ' := ne_of_isNameChar hd (by decide)
      simp [closed, Text.after?, hspace]
    | cons c name =>
      by_cases hc : d = c
      · simp only [List.cons_append, Text.after?, hc, if_true, ih hw name]
      · simp only [List.cons_append, Text.after?, hc, if_false, Option.map_none]

/-- A word that a blank has to follow is read where a name stands just if it is the name. -/
theorem IsName.word (h : IsName name) {w : String} (hw : ∀ c ∈ w.toList, isNameChar c = true)
    (rest : Text) :
    word w (name ++ closed rest) =
      if name = w.toList then some ((), '\x7d' :: '\x7d' :: rest) else none := by
  simp only [Reader.word, Reader.mark, h.skip, after?_name hw]
  cases hafter : Text.after? w.toList name with
  | none =>
    have hne : name ≠ w.toList := by
      rintro rfl
      have hself := Text.after?_append w.toList []
      rw [List.append_nil, hafter] at hself
      cases hself
    rw [if_neg hne]
    rfl
  | some tail =>
    have hsplit := Text.eq_append_of_after? hafter
    cases tail with
    | nil =>
      rw [if_pos (by simpa using hsplit)]
      rfl
    | cons c tail =>
      have hc := isSpace_of_isNameChar (h.2 c (by simp [hsplit]))
      rw [if_neg (by simp [hsplit])]
      simp [hc]

/-- A word between conditions is read where a name stands only if the tag is closed behind it. -/
theorem IsName.logicWord (h : IsName name) {rest : Text} {b : Bool} {v : Text}
    (hop : logicWord (name ++ closed rest) = some (b, v)) : v = '\x7d' :: '\x7d' :: rest := by
  have hor : ∀ c ∈ "or".toList, isNameChar c = true := List.all_eq_true.1 (by decide)
  have hand : ∀ c ∈ "and".toList, isNameChar c = true := List.all_eq_true.1 (by decide)
  simp only [Template.logicWord, Reader.or, h.word hor, h.word hand] at hop
  split_ifs at hop <;> simp_all

end Names

section Identifiers

variable {value : Reader Expr} {key : Text} {c : Char}

theorem isDigit_of_start (h : (c.isAlpha || c == '_') = true) : Text.isDigit c = false := by
  rw [Bool.or_eq_true, beq_iff_eq] at h
  rcases h with h | rfl
  · change (decide (65 ≤ c.val ∧ c.val ≤ 90) ||
      (decide (97 ≤ c.val) && decide (c.val ≤ 122))) = true at h
    simp only [Bool.or_eq_true, Bool.and_eq_true, decide_eq_true_eq, UInt32.le_iff_toNat_le,
      UInt32.reduceToNat] at h
    simp only [Text.isDigit, Bool.and_eq_false_iff, decide_eq_false_iff_not, Char.le_def,
      UInt32.le_iff_toNat_le, Char.reduceVal, UInt32.reduceToNat]
    omega
  · decide

namespace IsIdentifier

theorem exists_cons (h : IsIdentifier key) :
    ∃ c t, key = c :: t ∧ (c.isAlpha || c == '_') = true ∧ isNameChar c = true := by
  obtain ⟨c, t, rfl, hc⟩ := h.isName.exists_cons
  exact ⟨c, t, rfl, h.start, hc⟩

theorem name? (h : IsIdentifier key) (rest : Text) :
    name? (key ++ closed rest) = some (key, closed rest) := by
  have hchars := h.isName.2
  obtain ⟨c, t, rfl, hstart, -⟩ := h.exists_cons
  have htail : ∀ d ∈ t, isNameChar d = true := fun d hd => hchars d (List.mem_cons_of_mem c hd)
  have htake : (t ++ closed rest).takeWhile isNameChar = t := by
    rw [List.takeWhile_append_of_pos htail]
    exact List.append_nil t
  have hdrop : (t ++ closed rest).dropWhile isNameChar = closed rest := by
    rw [List.dropWhile_append_of_pos htail]
    rfl
  rw [List.cons_append, Template.name?, if_pos hstart, htake, hdrop]

theorem identifier? (h : IsIdentifier key) (rest : Text) :
    identifier? (key ++ closed rest) = some (.variable key, closed rest) := by
  have hkeys : ∀ fuel, afterKeys fuel (closed rest) = closed rest := by
    intro fuel
    cases fuel with
    | zero => rfl
    | succ fuel => rfl
  have hlength : (key ++ closed rest).length - (closed rest).length = key.length := by
    rw [List.length_append, Nat.add_sub_cancel]
  simp only [Template.identifier?, taken, path?, h.name?, hkeys, Option.map_some, hlength,
    List.take_left]

theorem integerDigits? (h : IsIdentifier key) (t : Text) : integerDigits? (key ++ t) = none := by
  obtain ⟨c, key, rfl, hstart, hc⟩ := h.exists_cons
  exact integerDigits?_of_ne (ne_of_isNameChar hc (by decide)) (isDigit_of_start hstart) _

theorem text? (h : IsIdentifier key) (t : Text) : text? (key ++ t) = none := by
  obtain ⟨c, key, rfl, -, hc⟩ := h.exists_cons
  exact text?_of_ne ⟨ne_of_isNameChar hc (by decide), ne_of_isNameChar hc (by decide),
    ne_of_isNameChar hc (by decide)⟩ _

theorem call? (h : IsIdentifier key) (rest : Text) : call? value (key ++ closed rest) = none := by
  have hname := h.name? rest
  rw [← h.isName.skip] at hname
  exact call?_of_some hname (ends_closed rest)

/-- An identifier alone is neither a text nor a concatenation. -/
theorem filteredText? (h : IsIdentifier key) (rest : Text) :
    filteredText? value (key ++ closed rest) = none := by
  have hinteger := h.integerDigits? (closed rest)
  have htext : spaced Template.text? (key ++ closed rest) = none := by
    rw [spaced, h.isName.skip, h.text?]
  have hpart : textPart? value (key ++ closed rest) = some (.variable key, closed rest) := by
    rw [textPart?, or_of_none (h.call? rest), or_of_none, or_of_none, or_of_none htext]
    · rw [spaced, h.isName.skip, h.identifier?]
    · rw [spaced, h.isName.skip, integer?_of_none hinteger]
    · rw [spaced, h.isName.skip, real?_of_none hinteger]
  exact filteredText?_of_none (concat?_of_some hpart (ends_closed rest)) htext

end IsIdentifier

end Identifiers

section Truths

variable {key : Text}

theorem isNameChar_of_mem_truths : ∀ w ∈ truths, ∀ c ∈ w.1.toList, isNameChar c = true := by
  have hall : (truths.all fun w => w.1.toList.all isNameChar) = true := by decide
  simpa only [List.all_eq_true] using hall

theorem IsIdentifier.mark_truth (h : IsIdentifier key) {w : String × Expr} (hw : w ∈ truths)
    (rest : Text) :
    mark w.1 (key ++ closed rest) =
      (Text.after? w.1.toList key).map fun more => ((), more ++ closed rest) := by
  rw [mark, h.isName.skip, after?_name (isNameChar_of_mem_truths w hw), Option.map_map]
  rfl

theorem IsIdentifier.bool?_eq_none_iff (h : IsIdentifier key) (rest : Text) :
    bool? (key ++ closed rest) = none ↔ startsWithTruth key = false := by
  rw [bool?, oneOf_eq_none_iff, startsWithTruth, List.any_eq_false]
  refine forall₂_congr fun w hw => ?_
  rw [h.mark_truth hw, Option.map_eq_none_iff]
  simp [Text.startsWith]

/-- Where a key starts with a truth value, that is read, and the rest of the key is left. -/
theorem IsKey.bool? (h : IsKey key) (hkey : startsWithTruth key = true) (rest : Text) :
    ∃ e more, bool? (key ++ closed rest) = some (e, more ++ closed rest) ∧ IsName more := by
  have hid := h.isIdentifier
  cases hread : Template.bool? (key ++ closed rest) with
  | none =>
    rw [hid.bool?_eq_none_iff, hkey] at hread
    cases hread
  | some r =>
    obtain ⟨e, u⟩ := r
    obtain ⟨w, hw, hmark⟩ := oneOf_eq_some hread
    rw [hid.mark_truth hw, Option.map_eq_some_iff] at hmark
    obtain ⟨more, hafter, hu⟩ := hmark
    have hsplit := Text.eq_append_of_after? hafter
    refine ⟨e, more, by rw [(Prod.mk.inj hu).2], ?_, ?_⟩
    · rintro rfl
      exact h.ne_truth w hw (by simpa using hsplit)
    · intro c hc
      exact hid.isName.2 c (by simp [hsplit, hc])

end Truths

section Tags

variable {value : Reader Expr} {key : Text}

/-- Nothing is read where the braces of a tag close it. -/
theorem condition?_braces (rest : Text) (n : Nat) : condition? n ('\x7d' :: '\x7d' :: rest) = none := by
  generalize ht : '\x7d' :: '\x7d' :: rest = t
  have hskip : skip t = t := by
    subst ht
    rfl
  have hmark : ∀ {m : String} {d ds}, m.toList = d :: ds → d ≠ '\x7d' → mark m t = none := by
    intro m d ds hm hd
    refine mark_of_ne hm fun c hc => ?_
    subst ht
    obtain rfl : '\x7d' = c := Option.some.inj hc
    exact hd.symm
  have hname : name? t = none := by
    subst ht
    rfl
  have hinteger : integerDigits? t = none := by
    subst ht
    exact integerDigits?_of_ne (by decide) (by decide) _
  have htext : text? t = none := by
    subst ht
    exact text?_of_ne (by decide) _
  have hbool : bool? t = none := by
    apply oneOf_eq_none_iff.2
    simp only [List.forall_mem_cons, List.not_mem_nil, false_imp_iff, implies_true, and_true]
    exact ⟨hmark rfl (by decide), hmark rfl (by decide), hmark rfl (by decide), hmark rfl (by decide)⟩
  have hcall : ∀ value, call? value t = none := by
    intro value
    apply call?_of_none
    rw [hskip, hname]
  have hidentifier : identifier? t = none := by
    simp only [identifier?, taken, path?, hname, Option.map_none]
  have hstart : StartsSimple t := by
    refine ⟨?_, fun value => filteredText?_of_none (concat?_of_none ?_) ?_, hmark rfl (by decide)⟩
    · rw [word, hmark rfl (by decide)]
      rfl
    · simp only [textPart?, Reader.or, spaced, hskip, hcall, real?_of_none hinteger,
        integer?_of_none hinteger, htext, hidentifier]
    · rw [spaced, hskip, htext]
  refine hstart.condition?_of_none (fun value => ?_) n
  simp only [simple?, Reader.or, spaced, hskip, hbool, hcall, hidentifier, real?_of_none hinteger,
    integer?_of_none hinteger]

namespace IsKey

theorem startsSimple (h : IsKey key) (rest : Text) : StartsSimple (key ++ closed rest) where
  negation := by
    have hchars : ∀ c ∈ "not".toList, isNameChar c = true := List.all_eq_true.1 (by decide)
    rw [h.isIdentifier.isName.word hchars, if_neg h.ne_negation]
  text := fun _ => h.isIdentifier.filteredText? rest
  parenthesis := h.isIdentifier.isName.mark rfl (by decide) _

/-- A key is read as the variable that it names. -/
theorem value?_of_not_startsWithTruth (h : IsKey key) (hkey : startsWithTruth key = false)
    (rest : Text) : value? (' ' :: (key ++ closed rest)) = some (.variable key, closed rest) := by
  have hid := h.isIdentifier
  refine (h.startsSimple rest).blank.value? (fun value => ?_) (ends_closed rest) ?_
  · rw [simple?_blank, simple?, or_of_none, or_of_none (hid.call? rest)]
    · apply or_of_some
      rw [spaced, hid.isName.skip, hid.identifier?]
    · rw [spaced, hid.isName.skip, (hid.bool?_eq_none_iff rest).2 hkey]
  · intro b v hop
    cases hop

/-- Of a key that starts with a truth value the truth value is read alone. -/
theorem value?_of_startsWithTruth (h : IsKey key) (hkey : startsWithTruth key = true) (rest : Text) :
    ∃ e more, value? (' ' :: (key ++ closed rest)) = some (e, more ++ closed rest) ∧ IsName more := by
  obtain ⟨e, more, hbool, hmore⟩ := h.bool? hkey rest
  refine ⟨e, more, (h.startsSimple rest).blank.value? (fun value => ?_) (hmore.ends _) ?_, hmore⟩
  · rw [simple?_blank, simple?]
    apply or_of_some
    rw [spaced, h.isIdentifier.isName.skip, hbool]
  · -- What is left of the key may be `and` or `or`, but no condition follows it.
    intro b v hop n
    rw [hmore.logicWord hop]
    exact condition?_braces rest n

end IsKey

theorem printEnd_closed (rest : Text) : printEnd (closed rest) = some (false, rest) := rfl

theorem printEnd_name {more : Text} (h : IsName more) (t : Text) : printEnd (more ++ t) = none := by
  apply oneOf_eq_none_iff.2
  simp only [List.forall_mem_cons, List.not_mem_nil, false_imp_iff, implies_true, and_true]
  exact ⟨h.mark rfl (by decide) t, h.mark rfl (by decide) t⟩

/-- A tag with a key prints the variable of that name, unless the key starts with a truth value: then it
is no tag. -/
theorem IsKey.tag? (h : IsKey key) (rest : Text) :
    tag? ("\x7b\x7b ".toList ++ (key ++ closed rest)) =
      if startsWithTruth key then none
      else some (.tag false false (.print (.variable key)), rest) := by
  change Template.tag? ('\x7b' :: '\x7b' :: ' ' :: (key ++ closed rest)) = _
  have hdash : dash (' ' :: (key ++ closed rest)) = (false, ' ' :: (key ++ closed rest)) := rfl
  cases hkey : startsWithTruth key with
  | true =>
    obtain ⟨e, more, hvalue, hmore⟩ := h.value?_of_startsWithTruth hkey rest
    simp only [Template.tag?, hdash, hvalue, Option.bind_eq_bind, Option.bind_some,
      printEnd_name hmore]
    rfl
  | false =>
    simp only [Template.tag?, hdash, h.value?_of_not_startsWithTruth hkey, Option.bind_eq_bind,
      Option.bind_some, printEnd_closed]
    rfl

end Tags

end RouteModule.Template
