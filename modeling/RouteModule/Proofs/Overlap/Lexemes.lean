import RouteModule.Proofs.Overlap.Steps

/-!
The tokens of a JSON text one by one: brackets, braces and commas, texts between quotes, scalars
without quotes, and the name of a member together with its colon. The token that makes a key of a name
is missing where the colon is too far behind.
-/

namespace RouteModule.Yaml

open Json (Blank Body)
open Scanner

variable {total limit depth : Nat} {c : Cursor} {s : Scanner} {rest b k v : Text} {ts : List Token}
  {ks : List (Option Candidate)} {x : Option Candidate} {allowed : Bool} {q : Option Text} {ok : Prop}
  {d : Char} {t : Token}

theorem Stands.cons (h : Stands total rest ts (depth + 1) s) :
    ∃ c x ks allowed, s = unblocked c ts (x :: ks) allowed ∧ c.At total rest ∧ ks.length = depth ∧
      NoneRequired (x :: ks) ∧ .streamEnd ∉ ts := by
  cases h with
  | @mk c ks allowed hat hdepth hks hclean =>
    obtain ⟨x, ks, rfl⟩ := List.exists_cons_of_length_eq_add_one hdepth
    exact ⟨c, x, ks, allowed, rfl, hat, Nat.succ.inj hdepth, hks, hclean⟩

theorem startsToken_cons (hd : isBlank d = false ∧ isBreak d = false ∧ d ≠ '#' ∧ d ≠ '\ufeff')
    (t : Text) : StartsToken (d :: t) := fun e he => by
  obtain rfl : d = e := Option.some.inj he
  exact hd

section Brackets

/-- The start of a collection. -/
inductive OpensFlow : Char → Token → Prop where
  | sequence : OpensFlow '[' .flowSequence
  | mapping : OpensFlow '\x7b' .flowMapping

/-- The end of a collection. -/
inductive ClosesFlow : Char → Token → Prop where
  | sequence : ClosesFlow ']' .flowSequenceEnd
  | mapping : ClosesFlow '\x7d' .flowMappingEnd

theorem readToken?_open (hd : OpensFlow d t) (h : s.cursor.At total (d :: rest)) :
    s.readToken? = s.readFlowStart? t := by
  have hmarker := noMarker (by cases hd <;> decide) h
  rw [readToken?, h.rest_eq]
  cases hd <;> simp [hmarker]

theorem readToken?_close (hd : ClosesFlow d t) (h : s.cursor.At total (d :: rest)) :
    s.readToken? = s.readFlowEnd? t := by
  have hmarker := noMarker (by cases hd <;> decide) h
  rw [readToken?, h.rest_eq]
  cases hd <;> simp [hmarker]

theorem readToken?_comma (h : s.cursor.At total (',' :: rest)) :
    s.readToken? = readFlowEntry? s := by
  have hmarker := noMarker (by decide) h
  rw [readToken?, h.rest_eq]
  simp [hmarker]

/-- The candidate for a key that starts at a place, or else the one before it. -/
def candidate (c : Cursor) (ts : List Token) (allowed : Bool) (x : Option Candidate) :
    Option Candidate :=
  if allowed then some ⟨false, ts.length, c.index, c.line, c.column⟩ else x

theorem NoneRequired.candidate (h : NoneRequired (x :: ks)) :
    NoneRequired (candidate c ts allowed x :: ks) := by
  refine NoneRequired.cons (fun k hk => ?_) h.tail
  cases allowed with
  | true =>
    obtain rfl := Option.some.inj hk
    rfl
  | false => exact h x List.mem_cons_self k hk

theorem readFlowStart?_unblocked (h : NoneRequired (x :: ks)) (t : Token) :
    (unblocked c ts (x :: ks) allowed).readFlowStart? t =
      some (unblocked c.next (t :: ts) (none :: candidate c ts allowed x :: ks) true) := by
  rw [readFlowStart?, addCandidate?_unblocked h]
  rfl

theorem readFlowEnd?_unblocked {y : Option Candidate} (h : NoneRequired (x :: y :: ks)) (t : Token) :
    (unblocked c ts (x :: y :: ks) allowed).readFlowEnd? t =
      some (unblocked c.next (t :: ts) (y :: ks) false) := by
  rw [readFlowEnd?, dropCandidate?_unblocked h]
  simp [unblocked, inFlow, allowKey, skip, push, Cursor.next, Cursor.skip]

theorem readFlowEntry?_unblocked (h : NoneRequired (x :: ks)) :
    readFlowEntry? (unblocked c ts (x :: ks) allowed) =
      some (unblocked c.next (.flowEntry :: ts) (none :: ks) true) := by
  unfold readFlowEntry?
  rw [dropCandidate?_unblocked h]
  rfl

theorem proceeds_open (hlimit : ok → limit = total) (hd : OpensFlow d t)
    (h : Stands total (d :: rest) ts (depth + 1) s) :
    Proceeds limit ok 1 s fun s' =>
      Stands total rest (t :: ts) (depth + 2) s' ∧ s'.keyAllowed = true := by
  obtain ⟨c, x, ks, allowed, rfl, hat, rfl, hks, hclean⟩ := h.cons
  have hfresh : NoneRequired (fresh c x :: ks.map (fresh c)) := hks.fresh c
  have hclean' : .streamEnd ∉ t :: ts := by cases hd <;> simpa using hclean
  have hread : (unblocked c ts ((x :: ks).map (fresh c)) allowed).readToken? = some (unblocked c.next
      (t :: ts) (none :: candidate c ts allowed (fresh c x) :: ks.map (fresh c)) true) := by
    rw [readToken?_open hd hat, List.map_cons, readFlowStart?_unblocked hfresh]
  exact proceeds_read hlimit (startsToken_cons (by cases hd <;> decide) rest) hat hks hclean hread
    hat.next (by simp) (.cons (by simp) hfresh.candidate) hclean'

theorem proceeds_close (hlimit : ok → limit = total) (hd : ClosesFlow d t)
    (h : Stands total (d :: rest) ts (depth + 2) s) :
    Proceeds limit ok 1 s fun s' =>
      Stands total rest (t :: ts) (depth + 1) s' ∧ s'.keyAllowed = false := by
  obtain ⟨c, x, ks, allowed, rfl, hat, hdepth, hks, hclean⟩ := h.cons
  obtain ⟨y, ks, rfl⟩ := List.exists_cons_of_length_eq_add_one hdepth
  have hfresh : NoneRequired (fresh c x :: fresh c y :: ks.map (fresh c)) := hks.fresh c
  have hclean' : .streamEnd ∉ t :: ts := by cases hd <;> simpa using hclean
  have hread : (unblocked c ts ((x :: y :: ks).map (fresh c)) allowed).readToken? =
      some (unblocked c.next (t :: ts) (fresh c y :: ks.map (fresh c)) false) := by
    rw [readToken?_close hd hat, List.map_cons, List.map_cons, readFlowEnd?_unblocked hfresh]
  exact proceeds_read hlimit (startsToken_cons (by cases hd <;> decide) rest) hat hks hclean hread
    hat.next (by simpa using hdepth) hfresh.tail hclean'

theorem proceeds_comma (hlimit : ok → limit = total)
    (h : Stands total (',' :: rest) ts (depth + 1) s) :
    Proceeds limit ok 1 s fun s' =>
      Stands total rest (.flowEntry :: ts) (depth + 1) s' ∧ s'.keyAllowed = true := by
  obtain ⟨c, x, ks, allowed, rfl, hat, rfl, hks, hclean⟩ := h.cons
  have hfresh : NoneRequired (fresh c x :: ks.map (fresh c)) := hks.fresh c
  have hclean' : .streamEnd ∉ .flowEntry :: ts := by simpa using hclean
  have hread : (unblocked c ts ((x :: ks).map (fresh c)) allowed).readToken? =
      some (unblocked c.next (.flowEntry :: ts) (none :: ks.map (fresh c)) true) := by
    rw [readToken?_comma hat, List.map_cons, readFlowEntry?_unblocked hfresh]
  exact proceeds_read hlimit (startsToken_cons (by decide) rest) hat hks hclean hread hat.next
    (by simp) (.cons (by simp) hfresh.tail) hclean'

end Brackets

section Scalars

theorem readToken?_text (h : s.cursor.At total ('"' :: rest)) :
    s.readToken? = s.readMark? fun c =>
      (quoted? false c).map fun r => (.scalar r.1 .quoted, r.2) := by
  have hmarker := noMarker (by decide) h
  rw [readToken?, h.rest_eq]
  simp [hmarker]

theorem readMark?_unblocked (h : NoneRequired (x :: ks)) (read : Cursor → Option (Token × Cursor)) :
    (unblocked c ts (x :: ks) allowed).readMark? read = (read c).map fun r =>
      unblocked r.2 (r.1 :: ts) (candidate c ts allowed x :: ks) false := by
  rw [readMark?, addCandidate?_unblocked h]
  change (read c).bind _ = _
  cases read c <;> rfl

theorem readPlain?_unblocked (h : NoneRequired (x :: ks)) :
    (unblocked c ts (x :: ks) allowed).readPlain? =
      (plain? (decide (0 < ks.length)) 0 c).map fun r =>
        unblocked r.2.2 (.scalar r.1 .plain :: ts) (candidate c ts allowed x :: ks) r.2.1 := by
  rw [readPlain?, addCandidate?_unblocked h]
  have hflow : (unblocked c ts (candidate c ts allowed x :: ks) allowed).inFlow =
      decide (0 < ks.length) := by
    simp [inFlow, unblocked]
  change (plain? (unblocked c ts (candidate c ts allowed x :: ks) allowed).inFlow 0 c).bind _ = _
  rw [hflow]
  cases plain? (decide (0 < ks.length)) 0 c <;> rfl

/-- A text between quotes that JSON reads is read with some of its gaps folded, or refused. -/
theorem proceeds_text (hlimit : ok → limit = total) (hk : Body q k) (hclear : ok → IsClear k)
    (h : Stands total ('"' :: (k ++ rest)) ts (depth + 1) s) :
    Proceeds limit ok 1 s fun s' => ∃ u w, q = some u ∧ Folded u w ∧ (IsClear k → w = u) ∧
      Stands total rest (.scalar w .quoted :: ts) (depth + 1) s' ∧ s'.keyAllowed = false ∧
      (IsClear k → s'.cursor.line = s.cursor.line) ∧
      (s.keyAllowed = true → s'.candidates.head? =
        some (some ⟨false, ts.length, s.cursor.index, s.cursor.line, s.cursor.column⟩)) := by
  obtain ⟨c, x, ks, allowed, rfl, hat, rfl, hks, hclean⟩ := h.cons
  have hfresh : NoneRequired (fresh c x :: ks.map (fresh c)) := hks.fresh c
  refine proceeds_token hlimit (startsToken_cons (by decide) _) hat hks hclean ?_
  rw [readToken?_text (s := unblocked c ts ((x :: ks).map (fresh c)) allowed) hat, List.map_cons,
    readMark?_unblocked hfresh]
  have hbody := quoted?_body hk hat
  generalize quoted? false c = result at hbody
  cases hbody with
  | refused hrefused =>
    exact .inr ⟨rfl, fun h => hrefused ⟨hclear h, Nat.succ_pos _⟩⟩
  | @read u w c' hq hfolded hat' hline =>
    have hclean' : .streamEnd ∉ Token.scalar w .quoted :: ts := by simpa using hclean
    refine .inl ⟨_, rest, rfl, hat', hclean', u, w, hq, hfolded, fun h => (hline h).1, ?_, rfl,
      fun h => (hline h).2, ?_⟩
    · exact .mk hat' (by simp) hfresh.candidate hclean'
    · intro hallowed
      obtain rfl : allowed = true := hallowed
      rfl

theorem startsPlain_bare (flow : Bool) (hv : IsBare v) : startsPlain flow (v ++ rest) = true := by
  obtain ⟨d, u, rfl, hd⟩ := hv.head
  rcases hd with hd | ⟨rfl, e, w, rfl, he⟩
  · obtain ⟨hblank, hbreak⟩ := hv.solid d List.mem_cons_self
    have hnone : "-?:,[]\x7b\x7d#&*!|>'\"%@\x60".toList.contains d = false := by
      rw [← Bool.not_eq_true, List.contains_iff_mem]
      intro hmem
      have hlist : ∀ e ∈ "-?:,[]\x7b\x7d#&*!|>'\"%@\x60".toList, e.isAlphanum = false := by
        simp
      rw [hlist d hmem] at hd
      cases hd
    rw [List.cons_append, startsPlain, hblank, hbreak, hnone]
    rfl
  · have hblank := (hv.solid e (by simp)).1
    simp [startsPlain, hblank]

theorem readToken?_bare (hv : IsBare v) (h : s.cursor.At total (v ++ rest)) :
    s.readToken? = s.readPlain? := by
  have hmarker := hv.atAnyMarker h
  have hstarts : startsPlain s.inFlow (v ++ rest) = true := startsPlain_bare s.inFlow hv
  rw [Cursor.atAnyMarker, Bool.or_eq_false_iff] at hmarker
  obtain ⟨d, u, rfl, hd⟩ := hv.head
  have hne : ∀ {e : Char}, e.isAlphanum = false → e ≠ '+' ∧ e ≠ '-' ∧ e ≠ '.' → d ≠ e :=
    hv.ne List.mem_cons_self
  have hdash : ¬ (d = '-' ∧ atGap (u ++ rest) = true) := by
    rintro ⟨rfl, hgap⟩
    rcases hd with hd | ⟨-, e, w, rfl, he⟩
    · exact absurd hd (by decide)
    · obtain ⟨hblank, hbreak⟩ := hv.solid e (by simp)
      simp [atGap, hblank, hbreak] at hgap
  rw [readToken?, h.rest_eq]
  rw [List.cons_append] at hstarts ⊢
  simp [hmarker, hdash, hstarts, hne (by decide : '%'.isAlphanum = false),
    hne (by decide : '['.isAlphanum = false), hne (by decide : ']'.isAlphanum = false),
    hne (by decide : '\x7b'.isAlphanum = false), hne (by decide : '\x7d'.isAlphanum = false),
    hne (by decide : ','.isAlphanum = false), hne (by decide : '?'.isAlphanum = false),
    hne (by decide : ':'.isAlphanum = false), hne (by decide : '*'.isAlphanum = false),
    hne (by decide : '&'.isAlphanum = false), hne (by decide : '!'.isAlphanum = false),
    hne (by decide : '|'.isAlphanum = false), hne (by decide : '>'.isAlphanum = false),
    hne (by decide : '\''.isAlphanum = false), hne (by decide : '"'.isAlphanum = false)]

/-- A scalar without quotes is read as it is, together with the blanks behind it. -/
theorem proceeds_bare {r : Text} (hlimit : ok → limit = total) (hv : IsBare v) (hb : Blank b)
    (hr : EndsBare (decide (0 < depth)) r) (h : Stands total (v ++ (b ++ r)) ts (depth + 1) s) :
    Proceeds limit ok 1 s fun s' => Stands total r (.scalar v .plain :: ts) (depth + 1) s' := by
  obtain ⟨c, x, ks, allowed, rfl, hat, rfl, hks, hclean⟩ := h.cons
  have hfresh : NoneRequired (fresh c x :: ks.map (fresh c)) := hks.fresh c
  have hclean' : .streamEnd ∉ Token.scalar v .plain :: ts := by simpa using hclean
  obtain ⟨broken, c', hplain, hat'⟩ := plain?_bare (Int.le_refl 0) hv hb hr hat
  have hread : (unblocked c ts ((x :: ks).map (fresh c)) allowed).readToken? = some (unblocked c'
      (.scalar v .plain :: ts) (candidate c ts allowed (fresh c x) :: ks.map (fresh c)) broken) := by
    rw [readToken?_bare hv hat, List.map_cons, readPlain?_unblocked hfresh, List.length_map, hplain]
    rfl
  have hstart : StartsToken (v ++ (b ++ r)) := by
    obtain ⟨d, u, rfl, -⟩ := hv.head
    obtain ⟨hblank, hbreak⟩ := hv.solid d List.mem_cons_self
    exact startsToken_cons ⟨hblank, hbreak, hv.ne List.mem_cons_self (by decide) (by decide),
      hv.ne List.mem_cons_self (by decide) (by decide)⟩ _
  exact (proceeds_read hlimit hstart hat hks hclean hread hat' (by simp) hfresh.candidate
    hclean').imp fun s' hs => hs.1

end Scalars

section Names

/-- Behind a name its colon comes on the same line and soon enough to make a key of the name. -/
structure OnLine (k b : Text) : Prop where
  line : ∀ d ∈ b, isBreak d = false
  near : Text.byteLength ('"' :: (k ++ b)) ≤ 1024

theorem readToken?_colon (hflow : s.inFlow = true) (h : s.cursor.At total (':' :: rest)) :
    s.readToken? = s.readValue? := by
  have hmarker := noMarker (by decide) h
  rw [readToken?, h.rest_eq]
  simp [hmarker, hflow]

/-- A colon makes a key of the last token if that is a candidate. -/
theorem readValue?_key {required : Bool} {index line column : Nat} (hks : 0 < ks.length)
    (t : Token) :
    (unblocked c (t :: ts) (some ⟨required, ts.length, index, line, column⟩ :: ks)
      allowed).readValue? = some (unblocked c.next (.value :: t :: .key :: ts) (none :: ks) false) := by
  have hlater : ts.length + 1 - ts.length = 1 := by omega
  simp [readValue?, unblocked, insertAt, openBlock, inFlow, allowKey, skip, push, hks, hlater,
    Cursor.next, Cursor.skip]

theorem readValue?_none (hks : 0 < ks.length) :
    (unblocked c ts (none :: ks) allowed).readValue? =
      some (unblocked c.next (.value :: ts) (none :: ks) false) := by
  simp [readValue?, unblocked, openBlock, inFlow, allowKey, skip, push, hks, Cursor.next,
    Cursor.skip]

/-- A colon behind a token, which it makes a key of unless that is too far back. -/
theorem proceeds_colon {index line column : Nat} (hlimit : ok → limit = total)
    (hnear : ok → line = s.cursor.line ∧ s.cursor.index ≤ index + 1024)
    (hx : s.candidates.head? = some (some ⟨false, ts.length, index, line, column⟩))
    (h : Stands total (':' :: rest) (t :: ts) (depth + 2) s) :
    Proceeds limit ok 1 s fun s' =>
      Stands total rest (.value :: t :: .key :: ts) (depth + 2) s' ∨
        ¬ ok ∧ Stands total rest (.value :: t :: ts) (depth + 2) s' := by
  obtain ⟨c, x, ks, allowed, rfl, hat, hdepth, hks, hclean⟩ := h.cons
  obtain rfl : x = some ⟨false, ts.length, index, line, column⟩ := Option.some.inj hx
  have hlength : 0 < (ks.map (fresh c)).length := by rw [List.length_map]; omega
  have hnone : NoneRequired (none :: ks.map (fresh c)) := .cons (by simp) (hks.tail.fresh c)
  have htoken : (unblocked c (t :: ts) ((some ⟨false, ts.length, index, line, column⟩ :: ks).map
      (fresh c)) allowed).readToken? = (unblocked c (t :: ts)
        (fresh c (some ⟨false, ts.length, index, line, column⟩) :: ks.map (fresh c))
        allowed).readValue? := by
    refine readToken?_colon ?_ hat
    simp only [inFlow, unblocked, List.map_cons, List.length_cons, decide_eq_true_eq]
    omega
  refine proceeds_token hlimit (startsToken_cons (by decide) rest) hat hks hclean (.inl ?_)
  rw [htoken]
  by_cases hfresh : line < c.line ∨ index + 1024 < c.index
  case pos =>
    have hstale : fresh c (some ⟨false, ts.length, index, line, column⟩) = none := by
      simp only [fresh, Option.filter_some]
      rcases hfresh with hline | hindex
      · simp [hline]
      · simp [hindex]
    have hclean' : .streamEnd ∉ Token.value :: t :: ts := by simpa using hclean
    rw [hstale, readValue?_none hlength]
    refine ⟨_, rest, rfl, hat.next, hclean', .inr ⟨fun hok => ?_, .mk hat.next ?_ hnone hclean'⟩⟩
    · obtain ⟨hline, hindex⟩ := hnear hok
      have hline' : line = c.line := hline
      have hindex' : c.index ≤ index + 1024 := hindex
      omega
    · rw [List.length_cons, List.length_map, hdepth]
  case neg =>
    have hkept : fresh c (some ⟨false, ts.length, index, line, column⟩) =
        some ⟨false, ts.length, index, line, column⟩ := by
      rw [not_or] at hfresh
      simp [fresh, Option.filter_some, hfresh.1, hfresh.2]
    have hclean' : .streamEnd ∉ Token.value :: t :: .key :: ts := by simpa using hclean
    rw [hkept, readValue?_key hlength]
    refine ⟨_, rest, rfl, hat.next, hclean', .inl (.mk hat.next ?_ hnone hclean')⟩
    rw [List.length_cons, List.length_map, hdepth]

/-- The name of a member is read as a key together with its colon. -/
theorem proceeds_name (hlimit : ok → limit = total) (hk : Body q k) (hb : Blank b)
    (hclear : ok → IsClear k ∧ OnLine k b) (hallowed : s.keyAllowed = true)
    (h : Stands total ('"' :: (k ++ (b ++ ':' :: rest))) ts (depth + 2) s) :
    Proceeds limit ok 2 s fun s' => ∃ u w, q = some u ∧ Folded u w ∧ (IsClear k → w = u) ∧
      (Stands total rest (.value :: .scalar w .quoted :: .key :: ts) (depth + 2) s' ∨
        ¬ ok ∧ Stands total rest (.value :: .scalar w .quoted :: ts) (depth + 2) s') := by
  refine (proceeds_text hlimit hk (fun hok => (hclear hok).1) h).bind (n := 1) ?_
  rintro s₁ ⟨u, w, hq, hfolded, hsame, hs₁, -, hline₁, hx₁⟩
  have hblank : Proceeds limit ok 0 s₁ _ :=
    proceeds_blank hb (startsToken_cons (by decide) _) (Nat.le_add_left 2 depth) hs₁
  refine hblank.andThen (n := 1) (Nat.le_refl 1) ?_
  rintro s₂ ⟨hs₂, -, hx₂, hline₂⟩
  have hnear : ok → s.cursor.line = s₂.cursor.line ∧ s₂.cursor.index ≤ s.cursor.index + 1024 := by
    intro hok
    obtain ⟨hclear, honline⟩ := hclear hok
    refine ⟨((hline₂ honline.line).trans (hline₁ hclear)).symm, ?_⟩
    have hindex := h.at.index_add
    have hindex₂ := hs₂.at.index_add
    have hnear := honline.near
    rw [Text.byteLength_cons, Text.byteLength_append] at hnear
    rw [Text.byteLength_cons, Text.byteLength_append, Text.byteLength_append] at hindex
    omega
  have hx : s₂.candidates.head? =
      some (some ⟨false, ts.length, s.cursor.index, s.cursor.line, s.cursor.column⟩) := by
    rw [hx₂, hx₁ hallowed]
  exact (proceeds_colon hlimit hnear hx hs₂).imp fun s' hs =>
    ⟨u, w, hq, hfolded, hsame, hs⟩

end Names

section Ends

variable {fuel : Nat}

theorem stands_start (t : Text) : Stands (Text.byteLength t) t [] 1 (Scanner.start t) :=
  .mk (Cursor.at_start t) rfl (fun k hk x hx => by simp_all) (by simp)

theorem readEnd?_unblocked (h : NoneRequired [x]) :
    (unblocked c ts [x] allowed).readEnd? =
      some { unblocked c.newLine (.streamEnd :: ts) [none] false with finished := true } := by
  have hnone : NoneRequired [none] := .cons (by simp) (by simp [NoneRequired])
  have hstale : (unblocked c.newLine ts [none] allowed).dropStale? =
      some (unblocked c.newLine ts [none] allowed) := dropStale?_unblocked hnone
  change ((unblocked c ts [x] allowed).dropCandidate?).bind _ = _
  rw [dropCandidate?_unblocked h, Option.bind_some]
  exact congrArg (Option.bind · fun s => some { (s.allowKey false).push .streamEnd with
    finished := true }) hstale

/-- At the end of the text the tokens come to an end, if all of the text can be read. -/
theorem run_end_outside (h : Stands total [] ts 1 s) :
    (∀ fuel, run limit (fuel + 2) s = ts.reverse ++ [.streamEnd]) ∨
      limit ≠ total ∧ ∀ fuel, .streamEnd ∉ run limit fuel s := by
  obtain ⟨c, x, ks, allowed, rfl, hat, hks, hnone, hclean⟩ := h.cons
  obtain rfl := List.length_eq_zero_iff.1 hks
  have hfresh : NoneRequired [fresh c x] := hnone.fresh c
  have hread : (unblocked c ts ([x].map (fresh c)) allowed).readToken? = some
      { unblocked c.newLine (.streamEnd :: ts) [none] false with finished := true } := by
    rw [readToken?]
    have hrest : (unblocked c ts ([x].map (fresh c)) allowed).cursor.rest = [] := hat.rest_eq
    simp only [hrest]
    exact readEnd?_unblocked hfresh
  have hnext := toNextToken_token (s := unblocked c ts [x] allowed) c.rest.length
    (fun d hd => by cases hd) hat
  have hstep : (unblocked c ts [x] allowed).step? limit = _ := step?_read hnone hnext hread
  have hend : c.newLine.At total [] := by
    unfold Cursor.newLine
    split
    · exact hat
    · exact ⟨hat.rest_eq, hat.index_add⟩
  by_cases hsee : (unblocked c ts [x] allowed).canSee limit 4 = true ∧
      { unblocked c.newLine (.streamEnd :: ts) [none] false with finished := true }.canSee limit 1 =
        true
  case pos =>
    rw [if_pos hsee] at hstep
    refine .inl fun fuel => ?_
    rw [run_step rfl hstep, run]
    simp [unblocked]
  case neg =>
    rw [if_neg hsee] at hstep
    refine .inr ⟨?_, fun fuel => ?_⟩
    · rintro rfl
      exact hsee ⟨canSee_of_at hat 4, canSee_of_at hend 1⟩
    · have hsettled : .streamEnd ∉ (unblocked c ts [x] allowed).settled := h.settled
      cases fuel with
      | zero => exact hsettled
      | succ fuel =>
        rw [run, hstep]
        exact hsettled

end Ends

end RouteModule.Yaml
