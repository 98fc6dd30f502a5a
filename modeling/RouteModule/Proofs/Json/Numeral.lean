import Mathlib.Algebra.Group.Nat.Defs
import Mathlib.Data.List.TakeDrop
import Mathlib.Data.List.TakeWhile
import RouteModule.Json.Node
import RouteModule.Json.Reader

/-!
Numbers as they are written: a sign, digits, places behind a point and an exponent. Whatever JSON reads
as a number, in range or not, has these parts, and a text with these parts is read as what they say,
whatever follows it that does not go on with it.
-/

namespace RouteModule

namespace Text

/-- The last digit of a number stands behind the digits of the others. -/
theorem ofNat_of_le {n : Nat} (h : 10 ≤ n) : ofNat n = ofNat (n / 10) ++ [Nat.digitChar (n % 10)] :=
  Nat.toDigits_of_base_le (by decide) h

theorem ofNat_of_lt {n : Nat} (h : n < 10) : ofNat n = [Nat.digitChar n] :=
  Nat.toDigits_of_lt_base h

theorem ofNat_ne_nil (n : Nat) : ofNat n ≠ [] := Nat.toDigits_ne_nil

theorem length_ofNat_pos (n : Nat) : 0 < (ofNat n).length := List.length_pos_iff.2 (ofNat_ne_nil n)

theorem isDigit_of_mem_ofNat {n : Nat} {c : Char} (h : c ∈ ofNat n) : isDigit c = true := by
  have hdigit : c.isDigit = true := Nat.isDigit_of_mem_toDigits (by decide) (by decide) h
  simp only [Char.isDigit, Bool.and_eq_true, decide_eq_true_eq] at hdigit
  simp only [isDigit, Bool.and_eq_true, decide_eq_true_eq]
  exact hdigit

/-- A number of more than one digit does not start with zero. -/
theorem head?_ofNat {n : Nat} (h : 0 < n) : (ofNat n).head? ≠ some '0' := by
  induction n using Nat.strongRecOn with
  | ind n ih =>
    rcases Nat.lt_or_ge n 10 with hlt | hge
    · have hdigits : ∀ d < 10, 0 < d → [Nat.digitChar d].head? ≠ some '0' := by decide
      rw [ofNat_of_lt hlt]
      exact hdigits n hlt h
    · rw [ofNat_of_le hge, List.head?_append, Option.or_of_isSome (by simp [ofNat_ne_nil])]
      exact ih (n / 10) (by omega) (by omega)

theorem eq_zero_of_head? {n : Nat} {t : Text} (h : (ofNat n ++ t).head? = some '0') : n = 0 := by
  by_contra hne
  rw [List.head?_append, Option.or_of_isSome (by simp [ofNat_ne_nil])] at h
  exact head?_ofNat (Nat.pos_of_ne_zero hne) h

/-- The number that goes on from another one by digits. -/
def digitsFrom (n : Nat) (t : Text) : Nat := t.foldl (fun n c => n * 10 + (c.toNat - '0'.toNat)) n

@[simp] theorem digitsFrom_nil (n : Nat) : digitsFrom n [] = n := rfl

@[simp] theorem digitsFrom_cons (n : Nat) (c : Char) (t : Text) :
    digitsFrom n (c :: t) = digitsFrom (n * 10 + (c.toNat - '0'.toNat)) t := by
  rw [digitsFrom, digitsFrom, List.foldl_cons]

theorem digitsFrom_append (n : Nat) (t u : Text) :
    digitsFrom n (t ++ u) = digitsFrom (digitsFrom n t) u := List.foldl_append

/-- More digits do not make a number smaller. -/
theorem le_digitsFrom (n : Nat) (t : Text) : n ≤ digitsFrom n t := by
  induction t generalizing n with
  | nil => exact Nat.le_refl n
  | cons c t ih =>
    rw [digitsFrom_cons]
    generalize c.toNat - '0'.toNat = d
    exact Nat.le_trans (by omega) (ih (n * 10 + d))

theorem digitsFrom_zeros (n k : Nat) : digitsFrom n (List.replicate k '0') = n * 10 ^ k := by
  induction k generalizing n with
  | zero => simp
  | succ k ih =>
    rw [List.replicate_succ, digitsFrom_cons, Nat.sub_self, Nat.add_zero, ih, Nat.pow_succ,
      Nat.mul_assoc, Nat.mul_comm 10]

theorem digitsFrom_ofNat (n : Nat) : digitsFrom 0 (ofNat n) = n := by
  have hdigit : ∀ d < 10, (Nat.digitChar d).toNat - '0'.toNat = d := by decide
  induction n using Nat.strongRecOn with
  | ind n ih =>
    rcases Nat.lt_or_ge n 10 with hlt | hge
    · rw [ofNat_of_lt hlt, digitsFrom_cons, hdigit n hlt, Nat.zero_mul, Nat.zero_add,
        digitsFrom_nil]
    · rw [ofNat_of_le hge, digitsFrom_append, ih (n / 10) (by omega), digitsFrom_cons,
        hdigit _ (Nat.mod_lt n (by decide)), digitsFrom_nil]
      omega

theorem digitValue?_of_digit {c : Char} (h : isDigit c = true) :
    digitValue? 10 c = some (c.toNat - '0'.toNat) := by
  have hcode : 48 ≤ c.toNat ∧ c.toNat ≤ 57 := by
    simp only [isDigit, Bool.and_eq_true, decide_eq_true_eq, Char.le_def, UInt32.le_iff_toNat_le]
      at h
    exact h
  have hlt : c.toNat - 48 < 10 := by omega
  have hzero : '0'.toNat = 48 := rfl
  simp [digitValue?, hcode, hlt, hzero]

/-- Digits of base ten are read as a number. -/
theorem toNat?_digits {t : Text} (hne : t ≠ []) (h : ∀ c ∈ t, isDigit c = true) :
    toNat? 10 t = some (digitsFrom 0 t) := by
  have hfold : ∀ n, t.foldl
      (fun acc d => do return (← acc) * 10 + (← digitValue? 10 d)) (some n) =
        some (digitsFrom n t) := by
    clear hne
    induction t with
    | nil => exact fun n => rfl
    | cons c t ih =>
      intro n
      obtain ⟨hc, ht⟩ := List.forall_mem_cons.1 h
      rw [List.foldl_cons, digitValue?_of_digit hc]
      exact ih ht _
  obtain ⟨c, t, rfl⟩ := List.exists_cons_of_ne_nil hne
  exact hfold 0

theorem toNat?_ofNat (n : Nat) : toNat? 10 (ofNat n) = some n := by
  rw [toNat?_digits (ofNat_ne_nil n) fun c => isDigit_of_mem_ofNat, digitsFrom_ofNat]

/-- Behind what is no digit nothing is read. -/
theorem foldl_digit_none (base : Nat) (t : Text) :
    t.foldl (fun acc d => do return (← acc) * base + (← digitValue? base d)) none = none := by
  induction t with
  | nil => rfl
  | cons d t ih => exact ih

/-- What is no digit keeps a text from being read as a number. -/
theorem toNat?_eq_none {base : Nat} {t : Text} {c : Char} (hc : c ∈ t)
    (h : digitValue? base c = none) : toNat? base t = none := by
  have hfold : ∀ acc, t.foldl
      (fun acc d => do return (← acc) * base + (← digitValue? base d)) acc = none := by
    obtain ⟨u, v, rfl⟩ := List.append_of_mem hc
    intro acc
    rw [List.foldl_append, List.foldl_cons]
    have hstep : (do return (← u.foldl (fun acc d => do
        return (← acc) * base + (← digitValue? base d)) acc) * base + (← digitValue? base c)) =
        (none : Option Nat) := by
      cases u.foldl (fun acc d => do return (← acc) * base + (← digitValue? base d)) acc with
      | none => rfl
      | some n => simp [h]
    rw [hstep]
    exact foldl_digit_none base v
  cases t with
  | nil => cases hc
  | cons d t => exact hfold (some 0)

end Text

namespace Json

section Parts

/-- A text does not go on with a number that stands in front of it. -/
def EndsNumber (t : Text) : Prop :=
  ∀ c ∈ t.head?, Text.isDigit c = false ∧ c ≠ '.' ∧ c ≠ 'e' ∧ c ≠ 'E'

/-- The sign of a number, and the rest of it. -/
def splitSign : Text → Bool × Text
  | '-' :: rest => (true, rest)
  | rest => (false, rest)

/-- The sign of an exponent, and the rest of it. -/
def splitExponent : Text → Bool × Text
  | '-' :: rest => (true, rest)
  | '+' :: rest => (false, rest)
  | rest => (false, rest)

variable {t rest : Text} {n : Number}

/-- The node of a number; one that is out of range can only be passed over. -/
def numberNode (source : Text) : Option Number → Node
  | some n => .atom source (.number n)
  | none => .unreadable

/-- A text that has all parts of a number is read as the number, if that is in range. -/
theorem readNumber_of_parts {places behind : Text} {exponent : Option Int}
    (hne : (spanDigits (splitSign t).2).1 ≠ [])
    (hzero : (spanDigits (splitSign t).2).1.head? = some '0' →
      (spanDigits (splitSign t).2).1.length = 1)
    (hplaces : readPlaces? (spanDigits (splitSign t).2).2 = some (places, behind))
    (hexponent : readExponent? behind = some (exponent, rest)) :
    readNumber t =
      (numberNode (t.take (t.length - rest.length))
        (number? (splitSign t).1 (spanDigits (splitSign t).2).1 places exponent), some rest) := by
  unfold readNumber
  split
  next negative body hsplit =>
    have hsign : splitSign t = (negative, body) := hsplit
    rw [hsign] at hne hzero hplaces ⊢
    dsimp only at hne hzero hplaces ⊢
    split
    · next hnil => exact absurd hnil hne
    · next hlong => simp [hlong] at hzero
    · simp only [hplaces, hexponent]
      cases number? negative (spanDigits body).1 places exponent <;> rfl

/-- A number that was read, in range or not, has all of its parts. -/
theorem parts_of_readNumber {node : Node} (h : readNumber t = (node, some rest)) :
    ∃ places behind exponent,
      (spanDigits (splitSign t).2).1 ≠ [] ∧
      ((spanDigits (splitSign t).2).1.head? = some '0' →
        (spanDigits (splitSign t).2).1.length = 1) ∧
      readPlaces? (spanDigits (splitSign t).2).2 = some (places, behind) ∧
      readExponent? behind = some (exponent, rest) := by
  unfold readNumber at h
  split at h
  next negative body hsplit =>
    have hsign : splitSign t = (negative, body) := hsplit
    rw [hsign]
    dsimp only at h ⊢
    split at h
    · cases h
    · cases h
    · next hnil hzero =>
      split at h
      · cases h
      · next places behind hplaces =>
        split at h
        · cases h
        · next exponent rest' hexponent =>
          have hrest : rest' = rest := by split at h <;> (cases h; rfl)
          subst hrest
          refine ⟨places, behind, exponent, hnil, ?_, hplaces, hexponent⟩
          intro hhead
          obtain ⟨r, hr⟩ := List.head?_eq_some_iff.1 hhead
          rw [hr]
          cases r with
          | nil => rfl
          | cons d r => exact absurd hr (hzero d r)

/-- A number that was read starts with a sign or a digit. -/
theorem head_of_readNumber {node : Node} (h : readNumber t = (node, some rest)) :
    ∃ c u, t = c :: u ∧ (c = '-' ∨ Text.isDigit c = true) := by
  obtain ⟨_, _, _, hne, -⟩ := parts_of_readNumber h
  cases t with
  | nil => exact absurd rfl hne
  | cons c u =>
    refine ⟨c, u, rfl, ?_⟩
    by_contra hno
    obtain ⟨hminus, hdigit⟩ := not_or.1 hno
    simp [splitSign, hminus, spanDigits, List.span_eq_takeWhile_dropWhile, hdigit] at hne

theorem readExponent?_of_mark {c : Char} (hc : c = 'e' ∨ c = 'E') (t : Text) :
    readExponent? (c :: t) =
      if (spanDigits (splitExponent t).2).1.isEmpty then none
      else
        let n : Int := (Text.toNat? 10 (spanDigits (splitExponent t).2).1).getD 0
        some (some (if (splitExponent t).1 then -n else n), (spanDigits (splitExponent t).2).2) := by
  cases t with
  | nil => simp [readExponent?, splitExponent, hc]
  | cons d t =>
    by_cases hminus : d = '-'
    · subst hminus
      simp only [readExponent?, if_pos hc, splitExponent]
    · by_cases hplus : d = '+'
      · subst hplus
        simp only [readExponent?, if_pos hc, splitExponent]
      · simp [readExponent?, splitExponent, hc, hminus, hplus]

end Parts

section Written

/-- An exponent as it is written: its mark, its sign and its digits. -/
structure Exponent where
  mark : Char
  sign : Text
  digits : Text

/-- A number as it is written. -/
structure Numeral where
  negative : Bool
  whole : Text
  places : Text
  exponent : Option Exponent

namespace Exponent

/-- The text of an exponent. -/
def text (e : Exponent) : Text := e.mark :: (e.sign ++ e.digits)

/-- An exponent that JSON reads. -/
structure Valid (e : Exponent) : Prop where
  mark : e.mark = 'e' ∨ e.mark = 'E'
  sign : e.sign = [] ∨ e.sign = ['-'] ∨ e.sign = ['+']
  ne_nil : e.digits ≠ []
  digits : ∀ c ∈ e.digits, Text.isDigit c = true

/-- What an exponent says. -/
def value (e : Exponent) : Int :=
  let n : Int := (Text.toNat? 10 e.digits).getD 0
  if e.sign = ['-'] then -n else n

end Exponent

namespace Numeral

/-- What stands in front of a number. -/
def sign (n : Numeral) : Text := if n.negative then ['-'] else []

/-- What stands behind the whole part of a number. -/
def tail (n : Numeral) : Text :=
  (if n.places = [] then [] else '.' :: n.places) ++ (n.exponent.map Exponent.text).getD []

/-- The text of a number. -/
def text (n : Numeral) : Text := n.sign ++ (n.whole ++ n.tail)

/-- A number that JSON reads: no zero stands in front of other digits. -/
structure Valid (n : Numeral) : Prop where
  ne_nil : n.whole ≠ []
  whole : ∀ c ∈ n.whole, Text.isDigit c = true
  zero : n.whole.head? = some '0' → n.whole.length = 1
  places : ∀ c ∈ n.places, Text.isDigit c = true
  exponent : ∀ e ∈ n.exponent, e.Valid

/-- What a number is, if it is in range. -/
def number? (n : Numeral) : Option Number :=
  Json.number? n.negative n.whole n.places (n.exponent.map Exponent.value)

end Numeral

variable {t rest : Text}

theorem isDigit_of_mem_spanDigits {c : Char} (h : c ∈ (spanDigits t).1) : Text.isDigit c = true := by
  rw [spanDigits, List.span_eq_takeWhile_dropWhile] at h
  exact List.all_eq_true.1 List.all_takeWhile c h

theorem spanDigits_append_self (t : Text) : t = (spanDigits t).1 ++ (spanDigits t).2 := by
  rw [spanDigits, List.span_eq_takeWhile_dropWhile]
  exact List.takeWhile_append_dropWhile.symm

/-- The places that were read are behind a point, unless there are none. -/
theorem text_of_readPlaces? {places : Text} (h : readPlaces? t = some (places, rest)) :
    t = (if places = [] then [] else '.' :: places) ++ rest ∧
      ∀ c ∈ places, Text.isDigit c = true := by
  unfold readPlaces? at h
  split at h
  · next t =>
    dsimp only at h
    split at h
    · cases h
    · next hne =>
      cases h
      have hne' : (spanDigits t).1 ≠ [] := by simpa using hne
      rw [if_neg hne', List.cons_append, ← spanDigits_append_self]
      exact ⟨rfl, fun c hc => isDigit_of_mem_spanDigits hc⟩
  · cases h
    exact ⟨rfl, by simp⟩

/-- The exponent that was read is as it is written. -/
theorem exponent_of_readExponent? {exponent : Option Int}
    (h : readExponent? t = some (exponent, rest)) :
    ∃ e : Option Exponent, (∀ x ∈ e, x.Valid) ∧ t = (e.map Exponent.text).getD [] ++ rest ∧
      exponent = e.map Exponent.value := by
  cases t with
  | nil =>
    cases h
    exact ⟨none, by simp, rfl, rfl⟩
  | cons c t =>
    by_cases hc : c = 'e' ∨ c = 'E'
    case neg =>
      simp only [readExponent?, if_neg hc] at h
      cases h
      exact ⟨none, by simp, rfl, rfl⟩
    case pos =>
      rw [readExponent?_of_mark hc] at h
      split at h
      · cases h
      · next hne =>
        cases h
        obtain ⟨sign, hsign, ht, hnegative⟩ : ∃ sign : Text,
            (sign = [] ∨ sign = ['-'] ∨ sign = ['+']) ∧ t = sign ++ (splitExponent t).2 ∧
              ((splitExponent t).1 = true ↔ sign = ['-']) := by
          unfold splitExponent
          split
          · exact ⟨['-'], by simp, rfl, by simp⟩
          · exact ⟨['+'], by simp, rfl, by simp⟩
          · exact ⟨[], by simp, rfl, by simp⟩
        refine ⟨some ⟨c, sign, (spanDigits (splitExponent t).2).1⟩, ?_, ?_, ?_⟩
        · rintro x hx
          obtain rfl := Option.some.inj hx
          exact ⟨hc, hsign, by simpa using hne, fun d hd => isDigit_of_mem_spanDigits hd⟩
        · simp only [Option.map_some, Option.getD_some, Exponent.text, List.cons_append,
            List.append_assoc, ← spanDigits_append_self]
          rw [← ht]
        · simp only [Option.map_some, Exponent.value]
          by_cases hs : sign = ['-']
          · simp [hs, hnegative.2 hs]
          · have hn : (splitExponent t).1 = false := by
              rw [Bool.eq_false_iff]
              exact fun hn => hs (hnegative.1 hn)
            simp [hs, hn]

/-- What was read as a number has the parts of one. -/
theorem numeral_of_readNumber {node : Node} (h : readNumber t = (node, some rest)) :
    ∃ n : Numeral, n.Valid ∧ t = n.text ++ rest ∧ node = numberNode n.text n.number? := by
  obtain ⟨places, behind, exponent, hne, hzero, hplaces, hexponent⟩ := parts_of_readNumber h
  have hread := h.symm.trans (readNumber_of_parts hne hzero hplaces hexponent)
  obtain ⟨hfront, hdigits⟩ := text_of_readPlaces? hplaces
  obtain ⟨e, he, rfl, rfl⟩ := exponent_of_readExponent? hexponent
  let n : Numeral := ⟨(splitSign t).1, (spanDigits (splitSign t).2).1, places, e⟩
  have htext : t = n.text ++ rest := by
    have hsign : t = n.sign ++ (splitSign t).2 := by
      simp only [n, Numeral.sign]
      unfold splitSign
      split <;> rfl
    have hbody : (splitSign t).2 = n.whole ++ (n.tail ++ rest) := by
      simp only [n, Numeral.tail, List.append_assoc]
      rw [← hfront]
      exact spanDigits_append_self _
    rw [Numeral.text, List.append_assoc, List.append_assoc, ← hbody, ← hsign]
  refine ⟨n, ⟨hne, fun c hc => isDigit_of_mem_spanDigits hc, hzero, hdigits, he⟩, htext, ?_⟩
  have htake : t.take (t.length - rest.length) = n.text := by
    rw [htext, List.length_append, Nat.add_sub_cancel, List.take_left]
  rw [(Prod.mk.inj hread).1, htake]
  rfl

/-- A text that is read as a number to its end is the text of one. -/
theorem numeral_of_number {node : Node} (h : readNumber t = (node, some [])) :
    ∃ n : Numeral, n.Valid ∧ t = n.text ∧ node = numberNode n.text n.number? := by
  obtain ⟨n, hn, ht, hnode⟩ := numeral_of_readNumber h
  rw [List.append_nil] at ht
  exact ⟨n, hn, ht, hnode⟩

section Reading

variable {n : Numeral} {e : Exponent}

/-- A text does not start with a digit. -/
def NoDigit (t : Text) : Prop := ∀ c ∈ t.head?, Text.isDigit c = false

theorem EndsNumber.noDigit (h : EndsNumber t) : NoDigit t := fun c hc => (h c hc).1

theorem spanDigits_append {w : Text} (hw : ∀ c ∈ w, Text.isDigit c = true) (hrest : NoDigit rest) :
    spanDigits (w ++ rest) = (w, rest) := by
  have hstop : rest.takeWhile Text.isDigit = [] ∧ rest.dropWhile Text.isDigit = rest := by
    cases rest with
    | nil => exact ⟨rfl, rfl⟩
    | cons c rest => simp [hrest c rfl]
  rw [spanDigits, List.span_eq_takeWhile_dropWhile, List.takeWhile_append_of_pos hw,
    List.dropWhile_append_of_pos hw, hstop.1, hstop.2, List.append_nil]

/-- Digits start with no sign. -/
theorem exists_digit {w : Text} (hne : w ≠ []) (hw : ∀ c ∈ w, Text.isDigit c = true) :
    ∃ c u, w = c :: u ∧ Text.isDigit c = true ∧ c ≠ '-' ∧ c ≠ '+' := by
  obtain ⟨c, u, rfl⟩ := List.exists_cons_of_ne_nil hne
  have hc := hw c List.mem_cons_self
  refine ⟨c, u, rfl, hc, ?_, ?_⟩ <;>
    (rintro rfl; exact absurd hc (by decide))

theorem readExponent?_ends (hrest : EndsNumber rest) : readExponent? rest = some (none, rest) := by
  cases rest with
  | nil => rfl
  | cons c rest =>
    have hc : ¬ (c = 'e' ∨ c = 'E') := not_or.2 ⟨(hrest c rfl).2.2.1, (hrest c rfl).2.2.2⟩
    simp only [readExponent?, if_neg hc]

/-- An exponent is read as what it says. -/
theorem Exponent.Valid.read (he : e.Valid) (hrest : EndsNumber rest) :
    readExponent? (e.text ++ rest) = some (some e.value, rest) := by
  obtain ⟨c, u, hdigits, -, hminus, hplus⟩ := exists_digit he.ne_nil he.digits
  have hsplit : splitExponent (e.sign ++ (e.digits ++ rest)) =
      (decide (e.sign = ['-']), e.digits ++ rest) := by
    rcases he.sign with hsign | hsign | hsign
    · simp [hsign, hdigits, splitExponent, hminus, hplus]
    · simp [hsign, splitExponent]
    · simp [hsign, splitExponent]
  rw [Exponent.text, List.cons_append, List.append_assoc, readExponent?_of_mark he.mark, hsplit]
  dsimp only
  rw [spanDigits_append he.digits hrest.noDigit, if_neg (by simp [he.ne_nil])]
  simp only [Exponent.value, decide_eq_true_eq]

/-- What stands behind the digits of a number starts with no digit, and with no point either if it is
the exponent. -/
theorem exponent_starts (he : ∀ x ∈ n.exponent, x.Valid) (hrest : EndsNumber rest) :
    NoDigit ((n.exponent.map Exponent.text).getD [] ++ rest) ∧
      ((n.exponent.map Exponent.text).getD [] ++ rest).head? ≠ some '.' := by
  cases hexponent : n.exponent with
  | none => exact ⟨hrest.noDigit, fun h => (hrest '.' h).2.1 rfl⟩
  | some e =>
    have hmark := (he e hexponent).mark
    refine ⟨fun c hc => ?_, ?_⟩
    · obtain rfl : e.mark = c := Option.some.inj hc
      rcases hmark with hmark | hmark <;> rw [hmark] <;> decide
    · rcases hmark with hmark | hmark <;> simp [Exponent.text, hmark]

theorem readExponent?_text (he : ∀ x ∈ n.exponent, x.Valid) (hrest : EndsNumber rest) :
    readExponent? ((n.exponent.map Exponent.text).getD [] ++ rest) =
      some (n.exponent.map Exponent.value, rest) := by
  cases hexponent : n.exponent with
  | none => exact readExponent?_ends hrest
  | some e => exact (he e hexponent).read hrest

theorem readPlaces?_text (h : n.Valid) (hrest : EndsNumber rest) :
    readPlaces? (n.tail ++ rest) =
      some (n.places, (n.exponent.map Exponent.text).getD [] ++ rest) := by
  obtain ⟨hdigit, hpoint⟩ := exponent_starts h.exponent hrest
  rw [Numeral.tail, List.append_assoc]
  by_cases hplaces : n.places = []
  · rw [if_pos hplaces, List.nil_append, hplaces]
    unfold readPlaces?
    split
    · next heq => exact absurd (by rw [heq]; rfl) hpoint
    · rfl
  · rw [if_neg hplaces, List.cons_append, readPlaces?, spanDigits_append h.places hdigit]
    exact if_neg (by simpa using hplaces)

/-- The parts of a number come off its text one after the other. -/
theorem Numeral.Valid.parts (h : n.Valid) (hrest : EndsNumber rest) :
    splitSign (n.text ++ rest) = (n.negative, n.whole ++ (n.tail ++ rest)) ∧
      spanDigits (n.whole ++ (n.tail ++ rest)) = (n.whole, n.tail ++ rest) := by
  obtain ⟨c, u, hwhole, -, hminus, -⟩ := exists_digit h.ne_nil h.whole
  constructor
  · cases hn : n.negative with
    | true => simp [Numeral.text, Numeral.sign, hn, splitSign]
    | false => simp [Numeral.text, Numeral.sign, hn, hwhole, splitSign, hminus]
  · refine spanDigits_append h.whole ?_
    rw [Numeral.tail, List.append_assoc]
    split
    · exact (exponent_starts h.exponent hrest).1
    · intro d hd
      obtain rfl : '.' = d := Option.some.inj hd
      decide

/-- A text with the parts of a number is read as what they say, in front of what does not go on with a
number. -/
theorem Numeral.Valid.read (h : n.Valid) (hrest : EndsNumber rest) :
    readNumber (n.text ++ rest) = (numberNode n.text n.number?, some rest) := by
  obtain ⟨hsplit, hspan⟩ := h.parts hrest
  have hbody : spanDigits (splitSign (n.text ++ rest)).2 = (n.whole, n.tail ++ rest) := by
    rw [hsplit, hspan]
  have htake : (n.text ++ rest).take ((n.text ++ rest).length - rest.length) = n.text := by
    rw [List.length_append, Nat.add_sub_cancel, List.take_left]
  rw [readNumber_of_parts (by rw [hbody]; exact h.ne_nil) (by rw [hbody]; exact h.zero)
    (by rw [hbody]; exact readPlaces?_text h hrest) (readExponent?_text h.exponent hrest), hbody,
    hsplit, htake]
  rfl

/-- The parts of a number are told by its text, but for the spelling of the exponent. -/
theorem Numeral.Valid.eq_of_text {m : Numeral} (hn : n.Valid) (hm : m.Valid)
    (h : n.text = m.text) : n.negative = m.negative ∧ n.whole = m.whole ∧ n.places = m.places ∧
      n.exponent.map Exponent.value = m.exponent.map Exponent.value := by
  have hnil : EndsNumber [] := by simp [EndsNumber]
  obtain ⟨hsplit, hspan⟩ := hn.parts hnil
  obtain ⟨hsplit', hspan'⟩ := hm.parts hnil
  rw [h, hsplit', Prod.mk.injEq] at hsplit
  rw [← hsplit.2, hspan', Prod.mk.injEq] at hspan
  have hplaces := readPlaces?_text hn hnil
  rw [← hspan.2, readPlaces?_text hm hnil, Option.some.injEq, Prod.mk.injEq] at hplaces
  have hexponent := readExponent?_text hn.exponent hnil
  rw [← hplaces.2, readExponent?_text hm.exponent hnil, Option.some.injEq, Prod.mk.injEq]
    at hexponent
  exact ⟨hsplit.1.symm, hspan.1.symm, hplaces.1.symm, hexponent.1.symm⟩

end Reading

end Written

end Json

end RouteModule
