import RouteModule.Proofs.Json.Grammar
import RouteModule.Proofs.Json.Numeral
import RouteModule.Proofs.Overlap.Quoted
import RouteModule.Proofs.Yaml.Plain

/-!
What YAML makes of the scalars that JSON writes without quotes: each is a plain scalar, which takes the
blanks behind it with it.
-/

namespace RouteModule.Yaml

open Json (Blank SpellsScalar)

variable {total fuel : Nat} {c : Cursor} {rest b v : Text}

section Blanks

theorem eq_of_isSpace {d : Char} (h : Json.isSpace d = true) :
    d = ' ' ∨ d = '\t' ∨ d = '\n' ∨ d = '\r' := by
  simp only [Json.isSpace, Bool.or_eq_true, beq_iff_eq] at h
  tauto

theorem isBlank_or_isBreak {d : Char} (h : Json.isSpace d = true) :
    isBlank d = true ∨ isBlank d = false ∧ isBreak d = true := by
  rcases eq_of_isSpace h with rfl | rfl | rfl | rfl <;> decide

/-- A line break of JSON is passed over, perhaps together with the line feed behind it. -/
theorem Cursor.At.lineBreak_blank {d : Char} (hd : Json.isSpace d = true) (hbreak : isBreak d = true)
    (h : c.At total (d :: (b ++ rest))) (hrest : StartsSolid rest) :
    ∃ x b' c', c.lineBreak = (x, c') ∧ c'.At total (b' ++ rest) ∧ b' <:+ b := by
  by_cases hreturn : d = '\r'
  case neg =>
    obtain ⟨c', hline, hat⟩ := h.lineBreak_of_ne hbreak hreturn
    exact ⟨_, b, c', hline, hat, List.suffix_rfl⟩
  subst hreturn
  by_cases hfeed : ∃ u, b ++ rest = '\n' :: u
  case pos =>
    obtain ⟨u, hu⟩ := hfeed
    cases b with
    | nil =>
      have hsolid := hrest '\n' (by rw [show rest = '\n' :: u from hu]; rfl)
      exact absurd hsolid.2 (by decide)
    | cons e b =>
      obtain ⟨rfl, -⟩ := List.cons.inj hu
      refine ⟨['\n'], b, ⟨b ++ rest, c.index + 2, c.line + 1, 0⟩, ?_, ⟨rfl, ?_⟩,
        List.suffix_cons _ b⟩
      · rw [Cursor.lineBreak, h.rest_eq]
        rfl
      · have hindex := h.index_add
        rw [List.cons_append, Text.byteLength_cons, Text.byteLength_cons] at hindex
        change c.index + (1 + (1 + Text.byteLength (b ++ rest))) = total at hindex
        change c.index + 2 + Text.byteLength (b ++ rest) = total
        omega
  case neg =>
    refine ⟨['\n'], b, ⟨b ++ rest, c.index + 1, c.line + 1, 0⟩, ?_, ⟨rfl, ?_⟩, List.suffix_rfl⟩
    · rw [Cursor.lineBreak, h.rest_eq]
      generalize b ++ rest = u at hfeed
      cases u with
      | nil => rfl
      | cons e u =>
        have he : e ≠ '\n' := by
          rintro rfl
          exact hfeed ⟨u, rfl⟩
        split
        · next heq => exact absurd (List.cons.inj (List.cons.inj heq).2).1 he
        · next heq =>
          obtain ⟨rfl, rfl⟩ := List.cons.inj heq
          rfl
        · next heq => cases heq
    · have hindex := h.index_add
      rw [Text.byteLength_cons] at hindex
      change c.index + (1 + Text.byteLength (b ++ rest)) = total at hindex
      change c.index + 1 + Text.byteLength (b ++ rest) = total
      omega

/-- The blanks of JSON are a gap, wherever tabs may stand. -/
theorem Gap.read_blank {ok : Cursor → Bool} (hok : ∀ c, ok c = true) (g : Gap) (hb : Blank b)
    (hrest : StartsSolid rest) (h : c.At total (b ++ rest)) (hfuel : b.length ≤ fuel) :
    ∃ g' c', Gap.read ok fuel g c = some (g', c') ∧ c'.At total rest := by
  induction fuel generalizing b g c with
  | zero =>
    obtain rfl := List.length_eq_zero_iff.1 (Nat.le_zero.1 hfuel)
    exact ⟨g, c, rfl, h⟩
  | succ fuel ih =>
    cases b with
    | nil => exact ⟨g, c, Gap.read_solid ok h hrest, h⟩
    | cons d b =>
      have hd := hb d List.mem_cons_self
      have hb' : Blank b := fun e he => hb e (List.mem_cons_of_mem d he)
      rw [List.length_cons, Nat.succ_le_succ_iff] at hfuel
      rw [Gap.read, h.rest_eq]
      rcases isBlank_or_isBreak hd with hblank | ⟨hblank, hbreak⟩
      · have hnext : c.next.At total (b ++ rest) := h.next
        simp only [List.cons_append, hblank, hok, Bool.not_true, Bool.and_false, Bool.false_eq_true,
          if_true, if_false]
        split
        · exact ih g hb' hnext hfuel
        · exact ih _ hb' hnext hfuel
      · obtain ⟨x, b', c', hline, hat, hsuffix⟩ := Cursor.At.lineBreak_blank hd hbreak h hrest
        have hbehind : Blank b' := fun e he => hb' e (hsuffix.subset he)
        have hfuel' : b'.length ≤ fuel := Nat.le_trans hsuffix.length_le hfuel
        simp only [List.cons_append, hblank, hbreak, hline, Bool.false_eq_true, if_true, if_false]
        split
        · exact ih _ hbehind hat hfuel'
        · exact ih _ hbehind hat hfuel'

end Blanks

section Scalars

/-- A scalar without quotes, by its characters. -/
structure IsBare (v : Text) : Prop where
  chars : ∀ d ∈ v, d.isAlphanum = true ∨ d = '+' ∨ d = '-' ∨ d = '.'
  head : ∃ d u, v = d :: u ∧
    (d.isAlphanum = true ∨ d = '-' ∧ ∃ e w, u = e :: w ∧ Text.isDigit e = true)

/-- A text writes a scalar without quotes. -/
def SpellsBare (n : Node) (v : Text) : Prop := SpellsScalar n v ∧ v.head? ≠ some '"'

theorem isAlphanum_of_isDigit {d : Char} (h : Text.isDigit d = true) : d.isAlphanum = true := by
  have hdigit : d.isDigit = true := by
    simpa [Text.isDigit, Char.isDigit, Char.le_def] using h
  rw [Char.isAlphanum, hdigit, Bool.or_true]

theorem isBare_numeral {n : Json.Numeral} (h : n.Valid) : IsBare n.text := by
  have hdigits : ∀ {t : Text}, (∀ d ∈ t, Text.isDigit d = true) →
      ∀ d ∈ t, d.isAlphanum = true ∨ d = '+' ∨ d = '-' ∨ d = '.' :=
    fun ht d hd => .inl (isAlphanum_of_isDigit (ht d hd))
  have hsign : ∀ d ∈ n.sign, d = '-' := by
    unfold Json.Numeral.sign
    split <;> simp
  have htail : ∀ d ∈ n.tail, d.isAlphanum = true ∨ d = '+' ∨ d = '-' ∨ d = '.' := by
    intro d hd
    rcases List.mem_append.1 hd with hd | hd
    · split at hd
      · cases hd
      · rcases List.mem_cons.1 hd with rfl | hd
        · simp
        · exact hdigits h.places d hd
    · cases he : n.exponent with
      | none => simp [he] at hd
      | some e =>
        have hvalid := h.exponent e he
        simp only [he, Option.map_some, Option.getD_some, Json.Exponent.text, List.mem_cons,
          List.mem_append] at hd
        rcases hd with rfl | hd | hd
        · rcases hvalid.mark with hmark | hmark <;> simp [hmark]
        · rcases hvalid.sign with hnone | hminus | hplus
          · simp [hnone] at hd
          · simp_all
          · simp_all
        · exact hdigits hvalid.digits d hd
  refine ⟨fun d hd => ?_, ?_⟩
  · rcases List.mem_append.1 hd with hd | hd
    · simp [hsign d hd]
    · rcases List.mem_append.1 hd with hd | hd
      · exact hdigits h.whole d hd
      · exact htail d hd
  · obtain ⟨e, w, hw⟩ := List.exists_cons_of_ne_nil h.ne_nil
    have he : Text.isDigit e = true := h.whole e (hw ▸ List.mem_cons_self)
    cases hn : n.negative with
    | true =>
      exact ⟨'-', e :: (w ++ n.tail), by simp [Json.Numeral.text, Json.Numeral.sign, hn, hw],
        .inr ⟨rfl, e, _, rfl, he⟩⟩
    | false =>
      exact ⟨e, w ++ n.tail, by simp [Json.Numeral.text, Json.Numeral.sign, hn, hw],
        .inl (isAlphanum_of_isDigit he)⟩

theorem SpellsBare.isBare {n : Node} (h : SpellsBare n v) : IsBare v := by
  obtain ⟨hscalar, hquote⟩ := h
  cases hscalar with
  | null => exact ⟨by simp, 'n', _, rfl, .inl rfl⟩
  | true => exact ⟨by simp, 't', _, rfl, .inl rfl⟩
  | false => exact ⟨by simp, 'f', _, rfl, .inl rfl⟩
  | number h =>
    obtain ⟨n, hvalid, rfl, -⟩ := Json.numeral_of_number h
    exact isBare_numeral hvalid
  | text => exact absurd rfl hquote

theorem isAlphanum_ne {d e : Char} (h : d.isAlphanum = true) (he : e.isAlphanum = false) :
    d ≠ e := by
  rintro rfl
  rw [h] at he
  cases he

/-- A character of a scalar without quotes is none of those that mean something else. -/
theorem IsBare.ne (h : IsBare v) {d e : Char} (hd : d ∈ v) (he : e.isAlphanum = false)
    (hsigns : e ≠ '+' ∧ e ≠ '-' ∧ e ≠ '.') : d ≠ e := by
  rcases h.chars d hd with hd | rfl | rfl | rfl
  · exact isAlphanum_ne hd he
  · exact hsigns.1.symm
  · exact hsigns.2.1.symm
  · exact hsigns.2.2.symm

theorem toNat_of_isAlphanum {d : Char} (h : d.isAlphanum = true) : d.toNat < 128 := by
  have hle : ∀ e : Char, d.val ≤ e.val → d.toNat ≤ e.toNat := fun e => UInt32.le_iff_toNat_le.1
  rcases Bool.or_eq_true_iff.1 h with h | hdigit
  · rcases Bool.or_eq_true_iff.1 h with hcapital | hsmall
    · exact Nat.lt_of_le_of_lt (hle 'Z' (of_decide_eq_true hcapital).2) (by decide)
    · have hz : d.val ≤ 'z'.val := of_decide_eq_true (Bool.and_eq_true_iff.1 hsmall).2
      exact Nat.lt_of_le_of_lt (hle 'z' hz) (by decide)
  · have hnine : d.val ≤ '9'.val := of_decide_eq_true (Bool.and_eq_true_iff.1 hdigit).2
    exact Nat.lt_of_le_of_lt (hle '9' hnine) (by decide)

theorem IsBare.solid (h : IsBare v) : ∀ d ∈ v, isBlank d = false ∧ isBreak d = false := by
  intro d hd
  have hascii : d.toNat < 128 := by
    rcases h.chars d hd with hd | rfl | rfl | rfl
    · exact toNat_of_isAlphanum hd
    · decide
    · decide
    · decide
  have hspace : d ≠ ' ' := h.ne hd (by decide) (by decide)
  have htab : d ≠ '\t' := h.ne hd (by decide) (by decide)
  have hfeed : d ≠ '\n' := h.ne hd (by decide) (by decide)
  have hreturn : d ≠ '\r' := h.ne hd (by decide) (by decide)
  have hwide : d.toNat ≠ 0x85 ∧ d.toNat ≠ 0x2028 ∧ d.toNat ≠ 0x2029 := by omega
  simp [isBlank, isBreak, hspace, htab, hfeed, hreturn, hwide]

end Scalars

section Plain

variable {flow : Bool} {r : Text}

/-- What may follow a scalar without quotes and the blanks behind it. -/
def EndsBare (flow : Bool) (r : Text) : Prop :=
  ∀ d ∈ r.head?, flow = true ∧ (d = ',' ∨ d = ']' ∨ d = '\x7d')

theorem EndsBare.startsSolid (h : EndsBare flow r) : StartsSolid r := by
  intro d hd
  rcases (h d hd).2 with rfl | rfl | rfl <;> decide

theorem plainRun?_end (hr : EndsBare flow r) (hb : Blank b) : plainRun? flow (b ++ r) = some 0 := by
  cases b with
  | nil =>
    cases r with
    | nil => rfl
    | cons d r =>
      obtain ⟨rfl, hd⟩ := hr d rfl
      rcases hd with rfl | rfl | rfl <;> rfl
  | cons d b =>
    have hd := isBlank_or_isBreak (hb d List.mem_cons_self)
    rw [List.cons_append, plainRun?, if_pos]
    rcases hd with hd | hd
    · rw [hd, Bool.true_or]
    · rw [hd.2, Bool.or_true]

theorem plainRun?_bare {u : Text} (hv : ∀ d ∈ u, d ∈ v) (hbare : IsBare v)
    (hend : plainRun? flow rest = some 0) : plainRun? flow (u ++ rest) = some u.length := by
  induction u with
  | nil => exact hend
  | cons d u ih =>
    obtain ⟨hd, hu⟩ := List.forall_mem_cons.1 hv
    obtain ⟨hblank, hbreak⟩ := hbare.solid d hd
    have hcolon : d ≠ ':' := hbare.ne hd (by decide) (by decide)
    have hcomma : d ≠ ',' := hbare.ne hd (by decide) (by decide)
    have hopen : d ≠ '[' := hbare.ne hd (by decide) (by decide)
    have hclose : d ≠ ']' := hbare.ne hd (by decide) (by decide)
    have hopen' : d ≠ '\x7b' := hbare.ne hd (by decide) (by decide)
    have hclose' : d ≠ '\x7d' := hbare.ne hd (by decide) (by decide)
    have hstray : isStrayColon flow (d :: (u ++ rest)) = false := by
      rw [isStrayColon]
      rintro e w heq
      exact absurd (List.cons.inj heq).1 hcolon
    have hends : endsPlain flow (d :: (u ++ rest)) = false := by
      rw [endsPlain]
      · simp [hcomma, hopen, hclose, hopen', hclose']
      · exact hcolon
    rw [List.cons_append, plainRun?, hblank, hbreak, hstray, hends, ih hu]
    rfl

theorem atMarker_of_ne {mark d : Char} (h : c.At total (d :: rest)) (hd : d ≠ mark) :
    c.atMarker mark = false := by
  simp [Cursor.atMarker, h.rest_eq, hd]

theorem atAnyMarker_of_ne {d : Char} (h : c.At total (d :: rest)) (hd : d ≠ '-' ∧ d ≠ '.') :
    c.atAnyMarker = false := by
  rw [Cursor.atAnyMarker, atMarker_of_ne h hd.1, atMarker_of_ne h hd.2]
  rfl

theorem IsBare.atAnyMarker (hv : IsBare v) (h : c.At total (v ++ rest)) :
    c.atAnyMarker = false := by
  obtain ⟨d, u, rfl, hd⟩ := hv.head
  rcases hd with hd | ⟨rfl, e, w, rfl, he⟩
  · exact atAnyMarker_of_ne h ⟨isAlphanum_ne hd (by decide), isAlphanum_ne hd (by decide)⟩
  · have hdash : e ≠ '-' := isAlphanum_ne (isAlphanum_of_isDigit he) (by decide)
    rw [Cursor.atAnyMarker, atMarker_of_ne h (by decide : '-' ≠ '.'), Bool.or_false]
    simp [Cursor.atMarker, h.rest_eq, hdash]

theorem atAnyMarker_end (hr : EndsBare flow r) (h : c.At total r) : c.atAnyMarker = false := by
  cases r with
  | nil => simp [Cursor.atAnyMarker, Cursor.atMarker, h.rest_eq]
  | cons d r =>
    rcases (hr d rfl).2 with rfl | rfl | rfl <;> exact atAnyMarker_of_ne h (by decide)

/-- Behind a scalar without quotes nothing more is read. -/
theorem plainFrom?_end {indent : Int} {t : Text} {g : Gap} (hr : EndsBare flow r)
    (h : c.At total r) : plainFrom? flow indent (fuel + 1) t g c = some (t, g.broken, c) := by
  have hcomment : c.rest.head? ≠ some '#' := by
    rw [h.rest_eq]
    intro hhead
    rcases (hr '#' hhead).2 with heq | heq | heq <;> cases heq
  have hrun : plainRun? flow c.rest = some 0 := by
    rw [h.rest_eq]
    exact plainRun?_end hr Json.blank_nil
  have hgap : (atGap c.rest && !c.rest.isEmpty) = false := by
    rw [h.rest_eq]
    cases r with
    | nil => rfl
    | cons d r =>
      rcases (hr d rfl).2 with rfl | rfl | rfl <;> rfl
  rw [plainFrom?, atAnyMarker_end hr h]
  simp only [hcomment, hrun, Cursor.skip_zero, hgap, Bool.false_eq_true, if_false, if_true,
    Option.bind_eq_bind, Option.bind_some]
  rfl

/-- A scalar without quotes is read as it is, with the blanks behind it. -/
theorem plain?_bare {indent : Int} (hindent : indent ≤ 0) (hv : IsBare v) (hb : Blank b)
    (hr : EndsBare flow r) (h : c.At total (v ++ (b ++ r))) :
    ∃ broken c', plain? flow indent c = some (v, broken, c') ∧ c'.At total r := by
  have hbehind : (c.skip v.length).At total (b ++ r) := h.skip
  have hcomment : c.rest.head? ≠ some '#' := by
    obtain ⟨d, u, rfl, -⟩ := hv.head
    rw [h.rest_eq]
    intro hhead
    exact hv.ne List.mem_cons_self (by decide) (by decide) (Option.some.inj hhead)
  have hrun : plainRun? flow c.rest = some v.length := by
    rw [h.rest_eq]
    exact plainRun?_bare (fun d hd => hd) hv (plainRun?_end hr hb)
  have htake : c.rest.take v.length = v := by rw [h.rest_eq, List.take_left]
  have hpos : v.length ≠ 0 := by
    obtain ⟨d, u, rfl, -⟩ := hv.head
    exact Nat.succ_ne_zero _
  have hstep : plain? flow indent c =
      if atGap (b ++ r) && !(b ++ r).isEmpty then
        (Gap.read (fun c => indent ≤ c.column) (b ++ r).length Gap.none (c.skip v.length)).bind
          fun p => if !flow && (p.2.column : Int) < indent then some (v, p.1.broken, p.2)
            else plainFrom? flow indent c.rest.length v p.1 p.2
      else some (v, false, c.skip v.length) := by
    rw [plain?, plainFrom?, hv.atAnyMarker h]
    simp only [hcomment, hrun, htake, hbehind.rest_eq, hpos, if_false, Option.bind_eq_bind,
      Option.bind_some, List.nil_append]
    rfl
  rw [hstep]
  split
  · have hok : ∀ c : Cursor, decide (indent ≤ (c.column : Int)) = true := by
      intro c
      rw [decide_eq_true_eq]
      omega
    obtain ⟨g, c', hread, hat⟩ := Gap.read_blank hok Gap.none hb hr.startsSolid hbehind
      (by rw [List.length_append]; omega : b.length ≤ (b ++ r).length)
    have hcolumn : ¬ (c'.column : Int) < indent := by omega
    obtain ⟨fuel, hfuel⟩ : ∃ fuel, c.rest.length = fuel + 1 := by
      refine Nat.exists_eq_succ_of_ne_zero ?_
      rw [h.rest_eq, List.length_append]
      omega
    rw [hread, Option.bind_some, hfuel, plainFrom?_end hr hat]
    simp only [hcolumn, decide_false, Bool.and_false, Bool.false_eq_true, if_false]
    exact ⟨_, c', rfl, hat⟩
  · next hsolid =>
    have hnil : b = [] := by
      cases b with
      | nil => rfl
      | cons d b =>
        exfalso
        apply hsolid
        rcases isBlank_or_isBreak (hb d List.mem_cons_self) with hd | hd
        · simp [atGap, hd]
        · simp [atGap, hd.2]
    subst hnil
    exact ⟨false, _, rfl, hbehind⟩

end Plain

end RouteModule.Yaml
