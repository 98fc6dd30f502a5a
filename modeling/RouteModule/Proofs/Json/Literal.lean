import RouteModule.Proofs.Json.Lexeme

/-!
What stands between quotes, character by character. A character is written as it is, by an escape of
one letter, or by the code unit that it is; a code unit that is half of a character is told apart,
since not every format can read the two halves together.
-/

namespace RouteModule.Json

variable {t rest : Text}

/-- Four digits of base sixteen and the code unit that they are. -/
inductive CodeUnit : Nat → Text → Prop where
  | digits {a b c d : Char} {w x y z : Nat} (ha : Text.digitValue? 16 a = some w)
    (hb : Text.digitValue? 16 b = some x) (hc : Text.digitValue? 16 c = some y)
    (hd : Text.digitValue? 16 d = some z) :
    CodeUnit (((w * 16 + x) * 16 + y) * 16 + z) [a, b, c, d]

/-- A character and how it is written between quotes. -/
inductive Piece : Char → Text → Prop where
  | plain {c : Char} (hquote : c ≠ '"') (hback : c ≠ '\\') (hcontrol : ¬ c.toNat < 32) : Piece c [c]
  | letter {c e : Char} (h : unescape? e = some c) : Piece c ['\\', e]
  | unit {n : Nat} {u : Text} (hu : CodeUnit n u) (hhigh : isHigh n = false)
    (hlow : isLow n = false) : Piece (Char.ofNat n) ('\\' :: 'u' :: u)

/-- What stands between quotes up to the closing one, and the text that it is, if it is one. From the
first code unit that is half of a character on, nothing is said about it. -/
inductive Body : Option Text → Text → Prop where
  | close : Body (some []) ['"']
  | piece {c : Char} {f k : Text} {q : Option Text} (hc : Piece c f) (hk : Body q k) :
    Body (q.map (c :: ·)) (f ++ k)
  | half {n : Nat} {u : Text} (q : Option Text) (k : Text) (hu : CodeUnit n u)
    (hhalf : isHigh n = true ∨ isLow n = true) : Body q ('\\' :: 'u' :: u ++ k)

/-- Some escape between quotes names half of a character. -/
def hasHalf : Text → Bool
  | '\\' :: 'u' :: t => (hex4? t).any (fun r => isHigh r.1 || isLow r.1) || hasHalf t
  | '\\' :: _ :: t => hasHalf t
  | _ :: t => hasHalf t
  | [] => false

section Units

variable {n : Nat} {u : Text}

theorem codeUnit_of_hex4? (h : hex4? t = some (n, rest)) : ∃ u, CodeUnit n u ∧ t = u ++ rest := by
  match t, h with
  | a :: b :: c :: d :: t, h =>
    simp only [hex4?, Option.bind_eq_bind, Option.bind_eq_some_iff, Option.pure_def,
      Option.some.injEq, Prod.mk.injEq] at h
    obtain ⟨w, hw, x, hx, y, hy, z, hz, rfl, rfl⟩ := h
    exact ⟨_, .digits hw hx hy hz, rfl⟩

theorem CodeUnit.hex4? (h : CodeUnit n u) (rest : Text) : hex4? (u ++ rest) = some (n, rest) := by
  cases h with
  | digits ha hb hc hd => simp [Json.hex4?, ha, hb, hc, hd]

theorem CodeUnit.length (h : CodeUnit n u) : u.length = 4 := by
  cases h
  rfl

theorem digitValue?_lt {c : Char} {v : Nat} (h : Text.digitValue? 16 c = some v) : v < 16 := by
  have hv := Option.ite_none_right_eq_some.1 h
  obtain rfl := Option.some.inj hv.2
  exact hv.1

theorem CodeUnit.lt (h : CodeUnit n u) : n < 65536 := by
  cases h with
  | digits ha hb hc hd =>
    have hw := digitValue?_lt ha
    have hx := digitValue?_lt hb
    have hy := digitValue?_lt hc
    have hz := digitValue?_lt hd
    omega

theorem CodeUnit.toNat? (h : CodeUnit n u) : Text.toNat? 16 u = some n := by
  cases h with
  | digits ha hb hc hd => simp [Text.toNat?, ha, hb, hc, hd]

theorem CodeUnit.isHexDigit (h : CodeUnit n u) : ∀ c ∈ u, Text.isHexDigit c = true := by
  cases h with
  | digits ha hb hc hd => simp [Text.isHexDigit, ha, hb, hc, hd]

theorem CodeUnit.ne_backslash (h : CodeUnit n u) : ∀ c ∈ u, c ≠ '\\' := by
  rintro c hc rfl
  have hdigit := h.isHexDigit _ hc
  revert hdigit
  decide

end Units

section Halves

theorem hasHalf_cons {c : Char} (hc : c ≠ '\\') (t : Text) : hasHalf (c :: t) = hasHalf t := by
  rw [hasHalf]
  · intro u hback
    exact absurd hback hc
  · intro d u hback
    exact absurd hback hc

theorem hasHalf_append {u : Text} (hu : ∀ c ∈ u, c ≠ '\\') (t : Text) :
    hasHalf (u ++ t) = hasHalf t := by
  induction u with
  | nil => rfl
  | cons c u ih =>
    rw [List.cons_append, hasHalf_cons (hu c List.mem_cons_self),
      ih fun d hd => hu d (List.mem_cons_of_mem c hd)]

/-- A character that is written whole has no half of another. -/
theorem Piece.hasHalf_append {c : Char} {f : Text} (h : Piece c f) (t : Text) :
    hasHalf (f ++ t) = hasHalf t := by
  cases h with
  | plain hquote hback hcontrol => exact hasHalf_cons hback t
  | @letter c e h =>
    have he : e ≠ 'u' := by
      rintro rfl
      cases h
    rw [List.cons_append, List.cons_append, List.nil_append, hasHalf]
    exact he
  | @unit n u hu hhigh hlow =>
    have hhex := hu.hex4? t
    rw [List.cons_append, List.cons_append, hasHalf, hhex, Json.hasHalf_append hu.ne_backslash]
    simp [hhigh, hlow]

theorem CodeUnit.hasHalf {n : Nat} {u : Text} (h : CodeUnit n u)
    (hhalf : isHigh n = true ∨ isLow n = true) (t : Text) :
    Json.hasHalf ('\\' :: 'u' :: u ++ t) = true := by
  rw [List.cons_append, List.cons_append, Json.hasHalf, h.hex4? t]
  simp [hhalf]

end Halves

theorem Body.ne_nil {q : Option Text} {k : Text} (h : Body q k) : k ≠ [] := by
  cases h with
  | close => exact List.cons_ne_nil _ _
  | piece hc hk =>
    cases hc with
    | plain => exact List.cons_ne_nil _ _
    | letter => exact List.cons_ne_nil _ _
    | unit => exact List.cons_ne_nil _ _
  | half => exact List.cons_ne_nil _ _

/-- What is read up to a closing quote is read character by character. -/
theorem body_of_readQuoted? {fuel : Nat} {q : Option Text}
    (h : readQuoted? fuel t = some (q, rest)) : ∃ v, t = v ++ rest ∧ Body q v := by
  fun_induction readQuoted? fuel t generalizing q rest with
  | case1 => cases h
  | case2 => cases h
  | case3 fuel rest =>
    cases h
    exact ⟨['"'], rfl, .close⟩
  | case4 => cases h
  | case5 fuel t n after hhex hhigh hnone ih =>
    obtain ⟨p, hp, rfl⟩ := map_half_eq_some_iff.1 h
    obtain ⟨v, rfl, -⟩ := ih hp
    obtain ⟨u, hu, rfl⟩ := codeUnit_of_hex4? hhex
    exact ⟨'\\' :: 'u' :: u ++ v, by simp, .half none v hu (.inl hhigh)⟩
  | case6 => cases h
  | case7 fuel t n after hhex hhigh low hlow m behind hhex' hpair ih =>
    obtain ⟨p, hp, rfl⟩ := map_push_eq_some_iff.1 h
    obtain ⟨v, rfl, -⟩ := ih hp
    obtain ⟨u, hu, rfl⟩ := codeUnit_of_hex4? hhex
    obtain ⟨x, hx, rfl⟩ := codeUnit_of_hex4? hhex'
    obtain rfl := Text.eq_append_of_after? hlow
    exact ⟨'\\' :: 'u' :: u ++ ('\\' :: 'u' :: x ++ v), by simp, .half _ _ hu (.inl hhigh)⟩
  | case8 fuel t n after hhex hhigh low hlow m behind hhex' hpair ih =>
    obtain ⟨p, hp, rfl⟩ := map_half_eq_some_iff.1 h
    obtain ⟨v, rfl, -⟩ := ih hp
    obtain ⟨u, hu, rfl⟩ := codeUnit_of_hex4? hhex
    exact ⟨'\\' :: 'u' :: u ++ v, by simp, .half none v hu (.inl hhigh)⟩
  | case9 fuel t n after hhex hhigh hlow ih =>
    obtain ⟨p, hp, rfl⟩ := map_half_eq_some_iff.1 h
    obtain ⟨v, rfl, -⟩ := ih hp
    obtain ⟨u, hu, rfl⟩ := codeUnit_of_hex4? hhex
    exact ⟨'\\' :: 'u' :: u ++ v, by simp, .half none v hu (.inr hlow)⟩
  | case10 fuel t n after hhex hhigh hlow ih =>
    obtain ⟨p, hp, rfl⟩ := map_push_eq_some_iff.1 h
    obtain ⟨v, rfl, hv⟩ := ih hp
    obtain ⟨u, hu, rfl⟩ := codeUnit_of_hex4? hhex
    have hunit : Piece (Char.ofNat n) ('\\' :: 'u' :: u) :=
      .unit hu (Bool.eq_false_iff.2 hhigh) (Bool.eq_false_iff.2 hlow)
    exact ⟨'\\' :: 'u' :: u ++ v, by simp, .piece hunit hv⟩
  | case11 fuel c t hc d hescape ih =>
    obtain ⟨p, hp, rfl⟩ := map_push_eq_some_iff.1 h
    obtain ⟨v, rfl, hv⟩ := ih hp
    exact ⟨['\\', c] ++ v, rfl, .piece (.letter hescape) hv⟩
  | case12 => cases h
  | case13 => cases h
  | case14 fuel c t hquote hback hback' hcontrol ih =>
    obtain ⟨p, hp, rfl⟩ := map_push_eq_some_iff.1 h
    have hplain := ne_backslash_of_readQuoted? hp hback'
    obtain ⟨v, rfl, hv⟩ := ih hp
    exact ⟨[c] ++ v, rfl, .piece (.plain hquote hplain hcontrol) hv⟩

/-- What is read as a text from behind its opening quote is one character by character. -/
theorem body_of_readText {node : Node} {k : Text} (h : readText k = (node, some [])) :
    ∃ q, Body q k ∧ ∀ s ∈ q, node = .atom s (.text s) := by
  unfold readText at h
  split at h
  · next s r hread =>
    cases h
    obtain ⟨v, rfl, hv⟩ := body_of_readQuoted? hread
    rw [List.append_nil]
    exact ⟨some s, hv, fun t ht => Option.some.inj ht ▸ rfl⟩
  · next r hread =>
    cases h
    obtain ⟨v, rfl, hv⟩ := body_of_readQuoted? hread
    rw [List.append_nil]
    exact ⟨none, hv, fun s hs => by cases hs⟩
  · cases h

end RouteModule.Json
