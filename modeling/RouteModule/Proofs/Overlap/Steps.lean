import RouteModule.Proofs.Overlap.Bare
import RouteModule.Proofs.Yaml.Scanner

/-!
The steps of the scanner through a JSON text. There are no blocks in such a text, so the state is
little more than a place, the tokens so far and a candidate for each bracket that is open. Where YAML
is the stricter of the two a step may fail, and then the tokens have no end.
-/

namespace RouteModule.Yaml

open Json (Blank Body)
open Scanner

variable {total limit fuel depth : Nat} {c : Cursor} {s s' : Scanner} {rest b k : Text}
  {ts : List Token} {ks : List (Option Candidate)} {allowed : Bool} {q : Option Text}

section States

/-- The state outside of blocks. -/
def unblocked (c : Cursor) (ts : List Token) (ks : List (Option Candidate)) (allowed : Bool) :
    Scanner :=
  ⟨c, ts, ts.length, -1, [], ks, allowed, false⟩

/-- No key has to start at any of the candidates. -/
def NoneRequired (ks : List (Option Candidate)) : Prop := ∀ k ∈ ks, ∀ x ∈ k, x.required = false

/-- Outside of blocks, and before the end, the scanner stands in front of `rest` with these tokens and
so many candidates. -/
inductive Stands (total : Nat) (rest : Text) (ts : List Token) (depth : Nat) : Scanner → Prop where
  | mk {c : Cursor} {ks : List (Option Candidate)} {allowed : Bool} (hat : c.At total rest)
    (hdepth : ks.length = depth) (hks : NoneRequired ks) (hclean : .streamEnd ∉ ts) :
    Stands total rest ts depth (unblocked c ts ks allowed)

/-- A candidate, unless it is on an earlier line or too far back. -/
def fresh (c : Cursor) (k : Option Candidate) : Option Candidate :=
  k.filter fun k => !(k.line < c.line || k.index + 1024 < c.index)

theorem NoneRequired.fresh (h : NoneRequired ks) (c : Cursor) : NoneRequired (ks.map (fresh c)) := by
  intro k hk x hx
  obtain ⟨k', hk', rfl⟩ := List.mem_map.1 hk
  exact h k' hk' x (Option.mem_filter_iff.1 hx).1

theorem NoneRequired.cons {k : Option Candidate} (hk : ∀ x ∈ k, x.required = false)
    (h : NoneRequired ks) : NoneRequired (k :: ks) :=
  List.forall_mem_cons.2 ⟨hk, h⟩

theorem NoneRequired.tail {k : Option Candidate} (h : NoneRequired (k :: ks)) : NoneRequired ks :=
  (List.forall_mem_cons.1 h).2

theorem mapM_eq_some {α β : Type} {f : α → Option β} {g : α → β} {l : List α}
    (h : ∀ x ∈ l, f x = some (g x)) : l.mapM f = some (l.map g) := by
  induction l with
  | nil => rfl
  | cons x l ih =>
    obtain ⟨hx, hl⟩ := List.forall_mem_cons.1 h
    rw [List.mapM_cons, hx, ih hl]
    rfl

theorem dropStale?_unblocked (h : NoneRequired ks) :
    (unblocked c ts ks allowed).dropStale? = some (unblocked c ts (ks.map (fresh c)) allowed) := by
  rw [dropStale?]
  refine congrArg (Option.bind · _) (mapM_eq_some (g := fresh c) fun k hk => ?_)
  cases k with
  | none => rfl
  | some k =>
    have hrequired : k.required = false := h _ hk k rfl
    have hstale : (unblocked c ts ks allowed).isStale k =
        (decide (k.line < c.line) || decide (k.index + 1024 < c.index)) := rfl
    simp only [hstale, hrequired, fresh, Option.filter_some]
    cases decide (k.line < c.line) || decide (k.index + 1024 < c.index) <;> rfl

theorem dropCandidate?_unblocked {k : Option Candidate} (h : NoneRequired (k :: ks)) :
    (unblocked c ts (k :: ks) allowed).dropCandidate? =
      some (unblocked c ts (none :: ks) allowed) := by
  cases k with
  | none => rfl
  | some k =>
    have hk : k.required = false := h _ List.mem_cons_self k rfl
    simp [dropCandidate?, unblocked, hk]

/-- The place is made a candidate where a key may start. -/
theorem addCandidate?_unblocked {k : Option Candidate} (h : NoneRequired (k :: ks)) :
    (unblocked c ts (k :: ks) allowed).addCandidate? = some (unblocked c ts
      ((if allowed then some ⟨false, ts.length, c.index, c.line, c.column⟩ else k) :: ks) allowed) := by
  cases allowed with
  | false => rfl
  | true =>
    have hcolumn : ¬ (-1 : Int) = c.column := by omega
    change ((unblocked c ts (k :: ks) true).dropCandidate?).bind _ = _
    rw [dropCandidate?_unblocked h]
    simp [unblocked, inFlow, hcolumn]

end States

section Blanks

/-- A token may start here. -/
def StartsToken (t : Text) : Prop :=
  ∀ d ∈ t.head?, isBlank d = false ∧ isBreak d = false ∧ d ≠ '#' ∧ d ≠ '\ufeff'

theorem StartsToken.startsSolid (h : StartsToken rest) : StartsSolid rest := fun d hd =>
  ⟨(h d hd).1, (h d hd).2.1⟩

theorem StartsToken.not_passed (h : StartsToken rest) (tabs : Bool) :
    ∀ d ∈ rest.head?, (d == ' ' || (tabs && d == '\t')) = false := by
  intro d hd
  have hblank := (h d hd).1
  rw [isBlank, Bool.or_eq_false_iff] at hblank
  rw [hblank.1, hblank.2, Bool.and_false, Bool.or_self]

theorem StartsToken.not_atBreak (h : StartsToken rest) :
    (!rest.isEmpty && atBreak rest) = false := by
  cases rest with
  | nil => rfl
  | cons d rest => exact (h d rfl).2.1

/-- Neither a comment nor a byte order mark stands behind blanks, if a token starts there. -/
theorem head_ne_of_blank (hb : Blank b) (hrest : StartsToken rest) :
    (b ++ rest).head? ≠ some '#' ∧ (b ++ rest).head? ≠ some '\ufeff' := by
  cases b with
  | nil => exact ⟨fun h => (hrest _ h).2.2.1 rfl, fun h => (hrest _ h).2.2.2 rfl⟩
  | cons d b =>
    have hd : Json.isSpace d = true := hb d List.mem_cons_self
    refine ⟨fun h => ?_, fun h => ?_⟩ <;> obtain rfl := Option.some.inj h <;>
      exact absurd hd (by decide)

/-- No tab stands where a key may start. -/
def TabsFit (allowed : Bool) (b : Text) : Prop := '\t' ∉ if allowed then b else b.dropWhile isBlank

/-- A key may start behind a line break, so that tabs which fit in front of it fit behind it too. -/
theorem TabsFit.behind_break {run u b' : Text} {d : Char} (h : TabsFit allowed (run ++ d :: u))
    (hrun : allowed = false → ∀ e ∈ run, isBlank e = true) (hd : isBreak d = true)
    (hsuffix : b' <:+ u) : TabsFit true b' := by
  intro htab
  have hmem : '\t' ∈ d :: u := List.mem_cons_of_mem d (hsuffix.subset htab)
  cases allowed with
  | true => exact h (List.mem_append_right run hmem)
  | false =>
    apply h
    rw [if_neg Bool.false_ne_true, List.dropWhile_append_of_pos (hrun rfl), List.dropWhile_cons,
      isBlank_eq_false_of_isBreak hd]
    exact hmem

/-- A blank that is not passed over, nor breaks the line, is a tab that may not be passed over. -/
theorem eq_tab_of_not_passed {d : Char} {tabs : Bool} (hd : Json.isSpace d = true)
    (hbreak : ¬ isBreak d = true) (hstop : (d == ' ' || (tabs && d == '\t')) = false) :
    d = '\t' ∧ tabs = false := by
  rcases eq_of_isSpace hd with rfl | rfl | rfl | rfl
  · simp at hstop
  · simpa using hstop
  · exact absurd (by decide) hbreak
  · exact absurd (by decide) hbreak

/-- A run of blanks is passed over, and a line break behind it. -/
theorem toNextToken_run (fuel : Nat) (run : Text) {u : Text} (h : s.cursor.At total (run ++ u))
    (hmark : (run ++ u).head? ≠ some '\ufeff')
    (hrun : ∀ d ∈ run, (d == ' ' || ((s.inFlow || !s.keyAllowed) && d == '\t')) = true)
    (hstop : ∀ d ∈ u.head?, (d == ' ' || ((s.inFlow || !s.keyAllowed) && d == '\t')) = false)
    (hcomment : u.head? ≠ some '#') :
    toNextToken (fuel + 1) s = if !u.isEmpty && atBreak u then
        toNextToken fuel { s with
          cursor := (s.cursor.skip run.length).lineBreak.2
          keyAllowed := s.keyAllowed || !s.inFlow }
      else { s with cursor := s.cursor.skip run.length } := by
  have hmark' : ¬ (s.cursor.column = 0 ∧ s.cursor.rest.head? = some '\ufeff') := by
    rw [h.rest_eq]
    exact fun hboth => hmark hboth.2
  have hskip : (s.cursor.skip run.length).skipComment = s.cursor.skip run.length := by
    rw [Cursor.skipComment, h.skip.rest_eq, if_neg hcomment]
  rw [toNextToken]
  simp only [if_neg hmark', h.takeWhile hrun hstop, hskip, h.skip.rest_eq]

/-- Blanks are passed over up to a token. Outside of collections a tab stops the way where a key may
start. -/
theorem toNextToken_blank (ts : List Token) (ks : List (Option Candidate)) (allowed : Bool)
    (hb : Blank b) (hrest : StartsToken rest) (h : c.At total (b ++ rest))
    (hfuel : b.length < fuel) :
    ∃ c' allowed', toNextToken fuel (unblocked c ts ks allowed) = unblocked c' ts ks allowed' ∧
      (1 < ks.length → allowed' = allowed) ∧
      (c'.At total rest ∧ ((∀ d ∈ b, isBreak d = false) → c'.line = c.line) ∨
        (allowed' = true ∧ ¬ 1 < ks.length ∧ ¬ TabsFit allowed b ∧
          ∃ u, c'.At total ('\t' :: u))) := by
  induction fuel generalizing b c allowed with
  | zero => exact absurd hfuel (Nat.not_lt_zero _)
  | succ fuel ih =>
    obtain ⟨run, u, rfl, hrun, hstop⟩ := exists_run
      (fun d => d == ' ' || ((decide (1 < ks.length) || !allowed) && d == '\t')) b
    have hat : c.At total (run ++ (u ++ rest)) := by rwa [List.append_assoc] at h
    have hbehind : (c.skip run.length).At total (u ++ rest) := hat.skip
    have hu : Blank u := fun e he => hb e (List.mem_append_right run he)
    have hstop' : ∀ d ∈ (u ++ rest).head?,
        (d == ' ' || ((decide (1 < ks.length) || !allowed) && d == '\t')) = false := by
      cases u with
      | nil => exact hrest.not_passed _
      | cons e u => exact hstop
    have hmark : (run ++ (u ++ rest)).head? ≠ some '\ufeff' := by
      rw [← List.append_assoc]
      exact (head_ne_of_blank hb hrest).2
    rw [toNextToken_run (s := unblocked c ts ks allowed) fuel run hat hmark hrun hstop'
      (head_ne_of_blank hu hrest).1]
    cases u with
    | nil =>
      rw [List.nil_append, hrest.not_atBreak]
      exact ⟨_, _, rfl, fun _ => rfl, .inl ⟨hbehind, fun _ => rfl⟩⟩
    | cons d u =>
      have hd : Json.isSpace d = true := hu d List.mem_cons_self
      have hat' : (c.skip run.length).At total (d :: (u ++ rest)) := hbehind
      by_cases hbreak : isBreak d = true
      case pos =>
        obtain ⟨x, b', c', hline, hat'', hsuffix⟩ :=
          Cursor.At.lineBreak_blank hd hbreak hat' hrest.startsSolid
        have hb' : Blank b' := fun e he => hu e (List.mem_cons_of_mem d (hsuffix.subset he))
        have hfuel' : b'.length < fuel := by
          have hle := hsuffix.length_le
          rw [List.length_append, List.length_cons] at hfuel
          omega
        obtain ⟨c₂, allowed₂, hnext, hflow, hcase⟩ :=
          ih (allowed || !decide (1 < ks.length)) hb' hat'' hfuel'
        refine ⟨c₂, allowed₂, ?_, fun h => ?_, ?_⟩
        · have hopen : (!(d :: u ++ rest).isEmpty && atBreak (d :: u ++ rest)) = true := hbreak
          rw [if_pos hopen]
          change toNextToken fuel (unblocked (c.skip run.length).lineBreak.2 ts ks _) = _
          rw [hline]
          exact hnext
        · rw [hflow h]
          simp [h]
        · rcases hcase with ⟨hat₂, -⟩ | ⟨hallowed, hroot, htabs, htab⟩
          · refine .inl ⟨hat₂, fun hnone => ?_⟩
            rw [hnone d (by simp)] at hbreak
            cases hbreak
          · refine .inr ⟨hallowed, hroot, fun hfit => htabs ?_, htab⟩
            rw [decide_eq_false hroot, Bool.not_false, Bool.or_true]
            refine hfit.behind_break (fun hallowed e he => ?_) hbreak hsuffix
            simpa [isBlank, hallowed] using hrun e he
      case neg =>
        obtain ⟨rfl, htabs⟩ := eq_tab_of_not_passed hd hbreak (hstop d rfl)
        obtain ⟨hroot, rfl⟩ : ¬ 1 < ks.length ∧ allowed = true := by simpa using htabs
        have hopen : (!('\t' :: u ++ rest).isEmpty && atBreak ('\t' :: u ++ rest)) = false := rfl
        rw [hopen]
        refine ⟨_, _, rfl, fun _ => rfl, .inr ⟨rfl, hroot, fun hfit => hfit ?_, _, hat'⟩⟩
        simp

/-- Where a token starts nothing is passed over. -/
theorem toNextToken_token (fuel : Nat) (hrest : StartsToken rest) (h : s.cursor.At total rest) :
    toNextToken (fuel + 1) s = s := by
  obtain ⟨hcomment, hmark⟩ := head_ne_of_blank Json.blank_nil hrest
  have hrun := toNextToken_run (s := s) fuel [] h hmark (by simp) (hrest.not_passed _) hcomment
  rw [hrun, hrest.not_atBreak, List.length_nil, Cursor.skip_zero]
  rfl

end Blanks

section Runs

variable {ok : Prop} {m n : Nat} {P Q : Scanner → Prop}

theorem mem_of_mem_settled {t : Token} (h : t ∈ s.settled) : t ∈ s.tokens :=
  List.mem_reverse.1 (List.mem_of_mem_take h)

theorem Stands.at (h : Stands total rest ts depth s) : s.cursor.At total rest := by
  cases h with
  | mk hat => exact hat

theorem Stands.settled (h : Stands total rest ts depth s) : .streamEnd ∉ s.settled := by
  cases h with
  | mk hat hdepth hks hclean => exact fun hmem => hclean (mem_of_mem_settled hmem)

theorem Stands.finished (h : Stands total rest ts depth s) : s.finished = false := by
  cases h
  rfl

/-- Two runs come to the same end, or neither of them to one. -/
def SameEnd (us vs : List Token) : Prop := us = vs ∨ .streamEnd ∉ us ∧ .streamEnd ∉ vs

theorem SameEnd.trans {us vs ws : List Token} (h : SameEnd us vs) (h' : SameEnd vs ws) :
    SameEnd us ws := by
  rcases h with rfl | ⟨hus, hvs⟩
  · exact h'
  · rcases h' with rfl | ⟨-, hws⟩
    · exact .inr ⟨hus, hvs⟩
    · exact .inr ⟨hus, hws⟩

theorem SameEnd.not_mem {us vs : List Token} (h : SameEnd us vs) (hvs : .streamEnd ∉ vs) :
    .streamEnd ∉ us := by
  rcases h with rfl | ⟨hus, -⟩
  · exact hvs
  · exact hus

/-- What comes of reading on: either the tokens never come to an end, which `ok` excludes, or at most
`size` steps lead to a state with a property. -/
inductive Proceeds (limit : Nat) (ok : Prop) (size : Nat) (s : Scanner) (P : Scanner → Prop) :
    Prop where
  | off (hok : ¬ ok) (hnever : ∀ fuel, .streamEnd ∉ run limit fuel s)
  | on {n : Nat} {s' : Scanner} (hn : n ≤ size)
    (hrun : ∀ fuel, SameEnd (run limit (fuel + 1 + n) s) (run limit (fuel + 1) s'))
    (hshort : ∀ fuel ≤ n, .streamEnd ∉ run limit fuel s) (hs : P s')

theorem Proceeds.mono (h : Proceeds limit ok m s P) (hmn : m ≤ n) (hPQ : ∀ s', P s' → Q s') :
    Proceeds limit ok n s Q := by
  cases h with
  | off hok hnever => exact .off hok hnever
  | on hn hrun hshort hs => exact .on (Nat.le_trans hn hmn) hrun hshort (hPQ _ hs)

theorem Proceeds.bind (h : Proceeds limit ok m s P)
    (hnext : ∀ s', P s' → Proceeds limit ok n s' Q) : Proceeds limit ok (m + n) s Q := by
  cases h with
  | off hok hnever => exact .off hok hnever
  | @on j s' hj hrun hshort hs =>
    have hlong : ∀ fuel, ¬ fuel ≤ j → ∃ less, fuel = less + 1 + j := fun fuel hfuel =>
      ⟨fuel - 1 - j, by omega⟩
    cases hnext s' hs with
    | off hok hnever =>
      refine .off hok fun fuel => ?_
      by_cases hfuel : fuel ≤ j
      · exact hshort fuel hfuel
      · obtain ⟨less, rfl⟩ := hlong fuel hfuel
        exact (hrun less).not_mem (hnever _)
    | @on i s'' hi hrun' hshort' hs' =>
      refine .on (Nat.add_le_add hj hi) (fun fuel => ?_) (fun fuel hfuel => ?_) hs'
      · have hfirst := hrun (fuel + i)
        have hsum : fuel + i + 1 + j = fuel + 1 + (j + i) := by omega
        have hrest : fuel + i + 1 = fuel + 1 + i := by omega
        rw [hsum, hrest] at hfirst
        exact hfirst.trans (hrun' fuel)
      · by_cases hless : fuel ≤ j
        · exact hshort fuel hless
        · obtain ⟨less, rfl⟩ := hlong fuel hless
          exact (hrun less).not_mem (hshort' _ (by omega))

theorem Proceeds.imp (h : Proceeds limit ok n s P) (hPQ : ∀ s', P s' → Q s') :
    Proceeds limit ok n s Q :=
  h.mono (Nat.le_refl n) hPQ

/-- Reading on from every state that is reached, within a given number of steps. -/
theorem Proceeds.andThen {size : Nat} (h : Proceeds limit ok m s P) (hsize : m + n ≤ size)
    (hnext : ∀ s', P s' → Proceeds limit ok n s' Q) : Proceeds limit ok size s Q :=
  (h.bind hnext).mono hsize fun _ hs => hs

/-- A step that fails, which ends the run. -/
theorem Proceeds.refused (h : Stands total rest ts depth s) (hstep : s.step? limit = none)
    (hok : ¬ ok) : Proceeds limit ok n s P := by
  refine .off hok fun fuel => ?_
  cases fuel with
  | zero => exact h.settled
  | succ fuel =>
    rw [run, h.finished, hstep]
    exact h.settled

/-- One step, or none if it fails. -/
theorem Proceeds.step (h : Stands total rest ts depth s)
    (hstep : (∃ s', s.step? limit = some s' ∧ .streamEnd ∉ s'.tokens ∧ P s') ∨
      s.step? limit = none ∧ ¬ ok) : Proceeds limit ok 1 s P := by
  rcases hstep with ⟨s', hstep, hclean, hs⟩ | ⟨hstep, hok⟩
  · refine .on (Nat.le_refl 1) (fun fuel => .inl (run_step h.finished hstep))
      (fun fuel hfuel => ?_) hs
    cases fuel with
    | zero => exact h.settled
    | succ fuel =>
      obtain rfl := Nat.le_zero.1 (Nat.le_of_succ_le_succ hfuel)
      rw [run_step h.finished hstep]
      exact fun hmem => hclean (mem_of_mem_settled hmem)
  · exact .refused h hstep hok

/-- A state from which the same step leads on. -/
theorem Proceeds.same {rest' : Text} (h : Stands total rest ts depth s)
    (h' : Stands total rest' ts depth s') (hstep : s.step? limit = s'.step? limit) (hs : P s') :
    Proceeds limit ok 0 s P := by
  refine .on (Nat.le_refl 0) (fun fuel => ?_) (fun fuel hfuel => ?_) hs
  · rw [Nat.add_zero, run, run, h.finished, h'.finished, hstep]
    cases s'.step? limit with
    | some s'' => exact .inl rfl
    | none => exact .inr ⟨h.settled, h'.settled⟩
  · obtain rfl := Nat.le_zero.1 hfuel
    exact h.settled

end Runs

section Tokens

variable {ok : Prop} {n : Nat} {P : Scanner → Prop}

theorem step?_congr (h : toNextToken (s.cursor.rest.length + 1) s =
    toNextToken (s'.cursor.rest.length + 1) s') : s.step? limit = s'.step? limit := by
  rw [step?, step?, h]

/-- Blanks inside of a collection are passed over. -/
theorem proceeds_blank (hb : Blank b) (hrest : StartsToken rest) (hdepth : 1 < depth)
    (h : Stands total (b ++ rest) ts depth s) :
    Proceeds limit ok 0 s fun s' => Stands total rest ts depth s' ∧ s'.keyAllowed = s.keyAllowed ∧
      s'.candidates = s.candidates ∧
      ((∀ d ∈ b, isBreak d = false) → s'.cursor.line = s.cursor.line) := by
  cases h with
  | @mk c ks allowed hat hks hnone hclean =>
    obtain ⟨c', allowed', hnext, hsame, hcase⟩ := toNextToken_blank ts ks allowed hb hrest hat
      (show b.length < c.rest.length + 1 by rw [hat.rest_eq, List.length_append]; omega)
    obtain rfl := hsame (hks ▸ hdepth)
    rcases hcase with ⟨hat', hline⟩ | ⟨-, hroot, -⟩
    · refine .same (.mk hat hks hnone hclean) (.mk hat' hks hnone hclean) (step?_congr ?_)
        ⟨.mk hat' hks hnone hclean, rfl, rfl, hline⟩
      rw [toNextToken_token (s := unblocked c' ts ks allowed') _ hrest hat']
      exact hnext
    · exact absurd (hks ▸ hdepth) hroot

/-- A step in its parts: the way to a token, and the token if enough of the text can be seen. -/
theorem step?_unblocked (hks : NoneRequired ks)
    (hnext : toNextToken (s.cursor.rest.length + 1) s = unblocked c ts ks allowed) :
    s.step? limit = if (unblocked c ts ks allowed).canSee limit 4 then
        (unblocked c ts (ks.map (fresh c)) allowed).readToken?.bind fun s =>
          if s.canSee limit 1 then some s else none
      else none := by
  rw [step?, hnext]
  dsimp only
  rw [dropStale?_unblocked hks]
  cases (unblocked c ts ks allowed).canSee limit 4 <;> rfl

/-- A token that is read is taken if enough of the text can be seen. -/
theorem step?_read (hks : NoneRequired ks)
    (hnext : toNextToken (s.cursor.rest.length + 1) s = unblocked c ts ks allowed)
    (hread : (unblocked c ts (ks.map (fresh c)) allowed).readToken? = some s') :
    s.step? limit = if (unblocked c ts ks allowed).canSee limit 4 = true ∧ s'.canSee limit 1 = true
      then some s' else none := by
  rw [step?_unblocked hks hnext, hread, Option.bind_some]
  by_cases hsee : (unblocked c ts ks allowed).canSee limit 4 = true
  · simp [hsee]
  · simp [hsee]

/-- Neither marker of a document starts with another character than its own. -/
theorem noMarker {d : Char} (hd : d ≠ '-' ∧ d ≠ '.') (h : c.At total (d :: rest)) :
    c.atMarker '-' = false ∧ c.atMarker '.' = false :=
  ⟨atMarker_of_ne h hd.1, atMarker_of_ne h hd.2⟩

theorem readToken?_tab (h : s.cursor.At total ('\t' :: rest)) : s.readToken? = none := by
  have hmarker := noMarker (by decide) h
  rw [readToken?, h.rest_eq]
  simp [hmarker, startsPlain, isBlank]

/-- Outside of collections blanks are passed over where no tab hinders it. -/
theorem proceeds_blank_outside (hb : Blank b) (hrest : StartsToken rest)
    (h : Stands total (b ++ rest) ts 1 s) (hok : ok → TabsFit s.keyAllowed b) :
    Proceeds limit ok 0 s fun s' => Stands total rest ts 1 s' := by
  cases h with
  | @mk c ks allowed hat hks hnone hclean =>
    obtain ⟨c', allowed', hnext, -, hcase⟩ := toNextToken_blank ts ks allowed hb hrest hat
      (show b.length < c.rest.length + 1 by rw [hat.rest_eq, List.length_append]; omega)
    rcases hcase with ⟨hat', -⟩ | ⟨rfl, hroot, htabs, u, hat'⟩
    · have hstep : (unblocked c ts ks allowed).step? limit =
          (unblocked c' ts ks allowed').step? limit := by
        refine step?_congr ?_
        rw [toNextToken_token (s := unblocked c' ts ks allowed') _ hrest hat']
        exact hnext
      exact .same (.mk hat hks hnone hclean) (.mk hat' hks hnone hclean) hstep
        (.mk hat' hks hnone hclean)
    · refine .refused (.mk hat hks hnone hclean) ?_ fun h => htabs (hok h)
      rw [step?_unblocked hnone hnext, readToken?_tab hat']
      split <;> rfl

/-- A token is read in one step, or the step fails. -/
theorem proceeds_token (hlimit : ok → limit = total) (hrest : StartsToken rest)
    (hat : c.At total rest) (hks : NoneRequired ks) (hclean : .streamEnd ∉ ts)
    (hread : (∃ s' rest', (unblocked c ts (ks.map (fresh c)) allowed).readToken? = some s' ∧
      s'.cursor.At total rest' ∧ .streamEnd ∉ s'.tokens ∧ P s') ∨
      (unblocked c ts (ks.map (fresh c)) allowed).readToken? = none ∧ ¬ ok) :
    Proceeds limit ok 1 (unblocked c ts ks allowed) P := by
  have hnext := toNextToken_token (s := unblocked c ts ks allowed) c.rest.length hrest hat
  refine .step (.mk hat rfl hks hclean) ?_
  rcases hread with ⟨s', rest', hread, hat', hclean', hs⟩ | ⟨hread, hok⟩
  · rw [step?_read hks hnext hread]
    by_cases hsee : (unblocked c ts ks allowed).canSee limit 4 = true ∧ s'.canSee limit 1 = true
    · rw [if_pos hsee]
      exact .inl ⟨s', rfl, hclean', hs⟩
    · rw [if_neg hsee]
      refine .inr ⟨rfl, fun h => hsee ?_⟩
      rw [hlimit h]
      exact ⟨canSee_of_at hat 4, canSee_of_at hat' 1⟩
  · rw [step?_unblocked hks hnext, hread]
    refine .inr ⟨?_, hok⟩
    split <;> rfl

/-- A token is read in one step to a state that is outside of blocks as well. -/
theorem proceeds_read {c' : Cursor} {rest' : Text} {ts' : List Token}
    {ks' : List (Option Candidate)} {allowed' : Bool} (hlimit : ok → limit = total)
    (hrest : StartsToken rest) (hat : c.At total rest) (hks : NoneRequired ks)
    (hclean : .streamEnd ∉ ts)
    (hread : (unblocked c ts (ks.map (fresh c)) allowed).readToken? =
      some (unblocked c' ts' ks' allowed'))
    (hat' : c'.At total rest') (hdepth : ks'.length = depth) (hks' : NoneRequired ks')
    (hclean' : .streamEnd ∉ ts') :
    Proceeds limit ok 1 (unblocked c ts ks allowed) fun s' =>
      Stands total rest' ts' depth s' ∧ s'.keyAllowed = allowed' :=
  proceeds_token hlimit hrest hat hks hclean
    (.inl ⟨_, rest', hread, hat', hclean', .mk hat' hdepth hks' hclean', rfl⟩)

end Tokens

end RouteModule.Yaml
