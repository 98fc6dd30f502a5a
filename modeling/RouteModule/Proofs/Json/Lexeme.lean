import RouteModule.Proofs.Json.Render

/-!
The texts of scalars. What the readers of a text and of a number take off a text is read the same in
front of anything else: behind a closing quote anything may follow, and behind a number anything that
does not go on with it.
-/

namespace RouteModule.Json

variable {t rest : Text}

section Quoted

variable {q : Option Text}

/-- A text up to a closing quote that stands for `q`, whatever follows it. -/
def Closes (q : Option Text) (v : Text) : Prop :=
  ∀ r fuel, v.length ≤ fuel → readQuoted? fuel (v ++ r) = some (q, r)

theorem hex4?_lexeme {n : Nat} (h : hex4? t = some (n, rest)) :
    ∃ v, v.length = 4 ∧ t = v ++ rest ∧ ∀ r, hex4? (v ++ r) = some (n, r) := by
  match t, h with
  | a :: b :: c :: d :: t, h =>
    simp only [hex4?, Option.bind_eq_bind, Option.bind_eq_some_iff, Option.pure_def,
      Option.some.injEq, Prod.mk.injEq] at h
    obtain ⟨w, hw, x, hx, y, hy, z, hz, hn, rfl⟩ := h
    refine ⟨[a, b, c, d], rfl, rfl, fun r => ?_⟩
    simp [hex4?, hw, hx, hy, hz, hn]

/-- A text up to a closing quote starts with an escape of a code unit or not, whatever follows it. -/
theorem Closes.next {v : Text} (h : Closes q v) :
    (∀ r, Text.after? ['\\', 'u'] (v ++ r) = none) ∨
      ∃ n, ∀ r, ∃ low after, Text.after? ['\\', 'u'] (v ++ r) = some low ∧
        hex4? low = some (n, after) := by
  have hself := h [] v.length (Nat.le_refl _)
  rw [List.append_nil] at hself
  cases v with
  | nil => simp [readQuoted?] at hself
  | cons c v =>
    by_cases hc : c = '\\'
    · subst hc
      cases v with
      | nil => simp [readQuoted?] at hself
      | cons d v =>
        by_cases hd : d = 'u'
        · subst hd
          cases hhex : hex4? v with
          | none => simp [readQuoted?, hhex] at hself
          | some r =>
            obtain ⟨n, rest⟩ := r
            obtain ⟨w, -, rfl, hw⟩ := hex4?_lexeme hhex
            refine .inr ⟨n, fun r => ⟨w ++ rest ++ r, rest ++ r, rfl, ?_⟩⟩
            rw [List.append_assoc, hw]
        · exact .inl fun r => by simp [Text.after?, Ne.symm hd]
    · exact .inl fun r => by simp [Text.after?, Ne.symm hc]

/-- Where no code unit is escaped in front of one text, none is in front of any. -/
theorem Closes.no_unit {v : Text} (h : Closes q v)
    (hnone : Text.after? ['\\', 'u'] (v ++ rest) = none) (r : Text) :
    Text.after? ['\\', 'u'] (v ++ r) = none := by
  rcases h.next with hnext | ⟨n, hnext⟩
  · exact hnext r
  · obtain ⟨low, after, hlow, -⟩ := hnext rest
    rw [hlow] at hnone
    cases hnone

/-- A code unit that is escaped in front of one text is escaped in front of any. -/
theorem Closes.unit {v low behind : Text} {m : Nat} (h : Closes q v)
    (hlow : Text.after? ['\\', 'u'] (v ++ rest) = some low) (hhex : hex4? low = some (m, behind))
    (r : Text) :
    ∃ low' behind', Text.after? ['\\', 'u'] (v ++ r) = some low' ∧
      hex4? low' = some (m, behind') := by
  rcases h.next with hnone | ⟨n, hnext⟩
  · rw [hnone rest] at hlow
    cases hlow
  · obtain ⟨low', behind', hlow', hhex'⟩ := hnext rest
    rw [hlow] at hlow'
    cases hlow'
    rw [hhex] at hhex'
    cases hhex'
    exact hnext r

theorem Quoted.push_eq (c : Char) (p : Option Text) (t : Text) :
    Quoted.push c (p, t) = (p.map (c :: ·), t) := by
  cases p <;> rfl

/-- A character in front is read where what is behind it is read. -/
theorem map_push_eq_some_iff {o : Option Quoted} {c : Char} :
    o.map (Quoted.push c) = some (q, rest) ↔ ∃ p, o = some (p, rest) ∧ q = p.map (c :: ·) := by
  rw [Option.map_eq_some_iff]
  constructor
  · rintro ⟨⟨p, u⟩, hp, heq⟩
    rw [Quoted.push_eq] at heq
    cases heq
    exact ⟨p, hp, rfl⟩
  · rintro ⟨p, hp, rfl⟩
    exact ⟨_, hp, Quoted.push_eq c p rest⟩

/-- Half of a character in front spoils what is read behind it. -/
theorem map_half_eq_some_iff {o : Option Quoted} :
    (o.map fun p => ((none : Option Text), p.2)) = some (q, rest) ↔
      ∃ p, o = some (p, rest) ∧ q = none := by
  rw [Option.map_eq_some_iff]
  constructor
  · rintro ⟨⟨p, u⟩, hp, heq⟩
    cases heq
    exact ⟨p, hp, rfl⟩
  · rintro ⟨p, hp, rfl⟩
    exact ⟨_, hp, rfl⟩

/-- A backslash in front of a closing quote would have been the start of an escape. -/
theorem ne_backslash_of_readQuoted? {c : Char} {fuel : Nat} {p : Quoted}
    (h : readQuoted? fuel t = some p) (hback : ∀ d u, c = '\\' → t = d :: u → False) :
    c ≠ '\\' := by
  rintro rfl
  cases t with
  | nil => cases fuel <;> cases h
  | cons d u => exact hback d u rfl rfl

/-- What stands in front of the rest of a text between quotes is read before it. -/
theorem Closes.of_step {lead v : Text} {p : Option Text} (hv : Closes p v) (hlead : lead ≠ [])
    (h : ∀ r fuel, readQuoted? fuel (v ++ r) = some (p, r) →
      readQuoted? (fuel + 1) (lead ++ (v ++ r)) = some (q, r)) : Closes q (lead ++ v) := by
  intro r fuel hfuel
  have hpos : 0 < lead.length := List.length_pos_iff.2 hlead
  rw [List.length_append] at hfuel
  obtain ⟨fuel, rfl⟩ := Nat.exists_eq_succ_of_ne_zero (n := fuel) (by omega)
  rw [List.append_assoc]
  exact h r fuel (hv r fuel (by omega))

/-- What is read up to a closing quote is read the same whatever follows the quote. -/
theorem readQuoted?_lexeme {fuel : Nat} (h : readQuoted? fuel t = some (q, rest)) :
    ∃ v, t = v ++ rest ∧ Closes q v := by
  fun_induction readQuoted? fuel t generalizing q rest with
  | case1 => cases h
  | case2 => cases h
  | case3 fuel rest =>
    cases h
    refine ⟨['"'], rfl, fun r fuel hfuel => ?_⟩
    obtain ⟨fuel, rfl⟩ := Nat.exists_eq_succ_of_ne_zero (Nat.ne_of_gt hfuel)
    rfl
  | case4 => cases h
  | case5 fuel t n after hhex hhigh hnone ih =>
    obtain ⟨p, hp, rfl⟩ := map_half_eq_some_iff.1 h
    obtain ⟨v, rfl, hv⟩ := ih hp
    obtain ⟨w, hw, rfl, hread⟩ := hex4?_lexeme hhex
    refine ⟨'\\' :: 'u' :: w ++ v, by simp, hv.of_step (by simp) fun r fuel hr => ?_⟩
    simp [readQuoted?, hread, hhigh, hv.no_unit hnone r, hr]
  | case6 => cases h
  | case7 fuel t n after hhex hhigh low hlow m behind hhex' hpair ih =>
    obtain ⟨p, hp, rfl⟩ := map_push_eq_some_iff.1 h
    obtain ⟨v, rfl, hv⟩ := ih hp
    obtain ⟨w, hw, rfl, hread⟩ := hex4?_lexeme hhex
    obtain ⟨x, hx, rfl, hread'⟩ := hex4?_lexeme hhex'
    obtain rfl := Text.eq_append_of_after? hlow
    refine ⟨'\\' :: 'u' :: (w ++ '\\' :: 'u' :: x) ++ v, by simp,
      hv.of_step (by simp) fun r fuel hr => ?_⟩
    have hsecond : Text.after? ['\\', 'u'] ('\\' :: 'u' :: (x ++ (v ++ r))) = some (x ++ (v ++ r)) :=
      rfl
    simp [readQuoted?, hread, hhigh, hsecond, hread', hpair, hr, Quoted.push_eq]
  | case8 fuel t n after hhex hhigh low hlow m behind hhex' hpair ih =>
    obtain ⟨p, hp, rfl⟩ := map_half_eq_some_iff.1 h
    obtain ⟨v, rfl, hv⟩ := ih hp
    obtain ⟨w, hw, rfl, hread⟩ := hex4?_lexeme hhex
    refine ⟨'\\' :: 'u' :: w ++ v, by simp, hv.of_step (by simp) fun r fuel hr => ?_⟩
    obtain ⟨low', behind', hlow', hhex''⟩ := hv.unit hlow hhex' r
    simp [readQuoted?, hread, hhigh, hlow', hhex'', hpair, hr]
  | case9 fuel t n after hhex hhigh hlow ih =>
    obtain ⟨p, hp, rfl⟩ := map_half_eq_some_iff.1 h
    obtain ⟨v, rfl, hv⟩ := ih hp
    obtain ⟨w, hw, rfl, hread⟩ := hex4?_lexeme hhex
    refine ⟨'\\' :: 'u' :: w ++ v, by simp, hv.of_step (by simp) fun r fuel hr => ?_⟩
    simp [readQuoted?, hread, hhigh, hlow, hr]
  | case10 fuel t n after hhex hhigh hlow ih =>
    obtain ⟨p, hp, rfl⟩ := map_push_eq_some_iff.1 h
    obtain ⟨v, rfl, hv⟩ := ih hp
    obtain ⟨w, hw, rfl, hread⟩ := hex4?_lexeme hhex
    refine ⟨'\\' :: 'u' :: w ++ v, by simp, hv.of_step (by simp) fun r fuel hr => ?_⟩
    simp [readQuoted?, hread, hhigh, hlow, hr, Quoted.push_eq]
  | case11 fuel c t hc d hescape ih =>
    obtain ⟨p, hp, rfl⟩ := map_push_eq_some_iff.1 h
    obtain ⟨v, rfl, hv⟩ := ih hp
    refine ⟨['\\', c] ++ v, rfl, hv.of_step (by simp) fun r fuel hr => ?_⟩
    have hread : readQuoted? (fuel + 1) ('\\' :: c :: (v ++ r)) =
        (readQuoted? fuel (v ++ r)).map (Quoted.push d) := by
      rw [readQuoted?.eq_def]
      simp [hescape]
    rw [List.cons_append, List.cons_append, List.nil_append, hread, hr, Option.map_some,
      Quoted.push_eq]
  | case12 => cases h
  | case13 => cases h
  | case14 fuel c t hquote hback hback' hcontrol ih =>
    obtain ⟨p, hp, rfl⟩ := map_push_eq_some_iff.1 h
    have hplain := ne_backslash_of_readQuoted? hp hback'
    obtain ⟨v, rfl, hv⟩ := ih hp
    refine ⟨[c] ++ v, rfl, hv.of_step (by simp) fun r fuel hr => ?_⟩
    rw [List.singleton_append, readQuoted?_plain hquote hplain hcontrol, hr, Option.map_some,
      Quoted.push_eq]

/-- A text is read from behind its opening quote the same whatever follows its closing quote. -/
theorem readText_lexeme {node : Node} (h : readText t = (node, some rest)) :
    ∃ v, t = v ++ rest ∧ ∀ r, readText (v ++ r) = (node, some r) := by
  unfold readText at h
  cases hq : readQuoted? (t.length + 1) t with
  | none => simp [hq] at h
  | some r =>
    obtain ⟨q, u⟩ := r
    obtain ⟨v, rfl, hv⟩ := readQuoted?_lexeme hq
    have hagain : ∀ r, readQuoted? ((v ++ r).length + 1) (v ++ r) = some (q, r) := by
      intro r
      refine hv r _ ?_
      rw [List.length_append]
      omega
    refine ⟨v, ?_, fun r => ?_⟩
    · cases q <;> simp_all
    · cases q <;> simp_all [readText]

end Quoted

section Numbers

/-- A number is read the same in front of anything that does not go on with it. -/
theorem readNumber_lexeme {node : Node} (h : readNumber t = (node, some rest)) :
    ∃ v, t = v ++ rest ∧ ∀ r, EndsNumber r → readNumber (v ++ r) = (node, some r) := by
  obtain ⟨n, hn, rfl, rfl⟩ := numeral_of_readNumber h
  exact ⟨n.text, rfl, fun r hr => hn.read hr⟩

end Numbers

end RouteModule.Json
