import Mathlib.Data.Bool.AllAny
import RouteModule.Proofs.Yaml.Plain
import RouteModule.Yaml.Token.Scanner

/-!
The tokens of a block mapping whose entries stand at the start of their lines. Each entry takes
three steps: its key, which is a candidate until the colon behind it is met; the colon, which puts
in the token of the key and, at the first entry, that of the mapping; and the value. `Writes` says
what the text of a value has to do for this.
-/

namespace RouteModule.Yaml

open Scanner

variable {total fuel : Nat} {c : Cursor} {s s₁ s₂ : Scanner} {t rest : Text}

section Steps

/-- What can be read up to the end can be looked at anywhere. -/
theorem canSee_of_at (h : s.cursor.At total rest) (n : Nat) : s.canSee total n = true := by
  have hindex := h.index_add
  have htake := Text.byteLength_take_le n rest
  rw [canSee, h.rest_eq, decide_eq_true_eq]
  omega

/-- A step in its parts: the way to the next token, and the token. -/
theorem step?_of (hnext : toNextToken (s.cursor.rest.length + 1) s = s₁)
    (hat : s₁.cursor.At total t) (hstale : s₁.dropStale? = some s₁)
    (hunroll : (s₁.unroll s₁.cursor.column).readToken? = some s₂) (hat₂ : s₂.cursor.At total rest) :
    s.step? total = some s₂ := by
  rw [step?, hnext]
  simp only [canSee_of_at hat, Bool.not_true, Bool.false_eq_true, if_false, hstale,
    Option.bind_eq_bind, Option.bind_some, hunroll, canSee_of_at hat₂, if_true]

theorem run_step (hopen : s.finished = false) (h : s.step? total = some s₁) :
    run total (fuel + 1) s = run total fuel s₁ := by
  rw [run, hopen, h]
  rfl

/-- Spaces up to a token are passed over. -/
theorem toNextToken_spaces {spaces : Text} (fuel : Nat) (h : s.cursor.At total (spaces ++ rest))
    (hspaces : ∀ d ∈ spaces, isSpace d = true) (hbom : (spaces ++ rest).head? ≠ some '\ufeff')
    (hrest : StartsSolid rest) (hcomment : rest.head? ≠ some '#') :
    toNextToken (fuel + 1) s = { s with cursor := s.cursor.skip spaces.length } := by
  have hmark : ¬ (s.cursor.column = 0 ∧ s.cursor.rest.head? = some '\ufeff') := by
    rw [h.rest_eq]
    exact fun hboth => hbom hboth.2
  have htake : ∀ tabs : Bool, s.cursor.takeWhile (fun d => d == ' ' || (tabs && d == '\t')) =
      (spaces, s.cursor.skip spaces.length) := by
    intro tabs
    refine h.takeWhile (fun d hd => ?_) fun d hd => ?_
    · have hspace : (d == ' ') = true := hspaces d hd
      rw [hspace, Bool.true_or]
    · have hblank := (hrest d hd).1
      rw [isBlank, Bool.or_eq_false_iff] at hblank
      rw [hblank.1, hblank.2, Bool.and_false, Bool.or_self]
  have hskip : (s.cursor.skip spaces.length).skipComment = s.cursor.skip spaces.length := by
    rw [Cursor.skipComment, h.skip.rest_eq, if_neg hcomment]
  have hstay : (!rest.isEmpty && atBreak rest) = false := by
    cases rest with
    | nil => rfl
    | cons d rest => exact (hrest d rfl).2
  rw [toNextToken]
  simp only [if_neg hmark, htake, hskip, h.skip.rest_eq, hstay, Bool.false_eq_true, if_false]

/-- A line feed is passed over, and behind it a key may start. -/
theorem toNextToken_feed (fuel : Nat) (h : s.cursor.At total ('\n' :: rest)) :
    ∃ c, c.At total rest ∧ c.column = 0 ∧
      toNextToken (fuel + 1) s =
        toNextToken fuel { s with cursor := c, keyAllowed := s.keyAllowed || !s.inFlow } := by
  obtain ⟨c, hbreak, hat, hzero⟩ := h.lineBreak (by decide) (by decide)
  refine ⟨c, hat, hzero, ?_⟩
  have hmark : ¬ (s.cursor.column = 0 ∧ s.cursor.rest.head? = some '\ufeff') := by
    rw [h.rest_eq]
    exact fun hboth => absurd (Option.some.inj hboth.2) (by decide)
  have htake : ∀ tabs : Bool, s.cursor.takeWhile (fun d => d == ' ' || (tabs && d == '\t')) =
      ([], s.cursor) := by
    intro tabs
    refine h.takeWhile_none fun d hd => ?_
    obtain rfl : '\n' = d := Option.some.inj hd
    cases tabs <;> rfl
  have hskip : s.cursor.skipComment = s.cursor := by
    rw [Cursor.skipComment, h.rest_eq]
    rfl
  have hgo : (!s.cursor.rest.isEmpty && atBreak s.cursor.rest) = true := by
    rw [h.rest_eq]
    rfl
  rw [toNextToken]
  simp only [if_neg hmark, htake, hskip, hgo, if_true, hbreak]

/-- A plain scalar starts where no other token does. -/
theorem readToken?_plain {d : Char} (hrest : s.cursor.rest = d :: t) (hflow : s.inFlow = false)
    (hmarker : s.cursor.atAnyMarker = false) (hsolid : isBlank d = false ∧ isBreak d = false)
    (hmark : d ∉ "#,[]\x7b\x7d&*!|>'\"%@\x60".toList)
    (hgap : d = '-' ∨ d = '?' ∨ d = ':' → atGap t = false) : s.readToken? = s.readPlain? := by
  have hne : ∀ e ∈ "#,[]\x7b\x7d&*!|>'\"%@\x60".toList, d ≠ e := by
    rintro e he rfl
    exact hmark he
  rw [Cursor.atAnyMarker, Bool.or_eq_false_iff] at hmarker
  have hstarts : startsPlain false (d :: t) = true := by
    by_cases hindicator : d = '-' ∨ d = '?' ∨ d = ':'
    case pos =>
      have hopen := hgap hindicator
      have hblank : t.head?.any isBlank = false := by
        cases t with
        | nil => rfl
        | cons e t => exact (Bool.or_eq_false_iff.1 hopen).1
      rcases hindicator with rfl | rfl | rfl <;> simp [startsPlain, hopen, hblank]
    case neg =>
      simp only [not_or] at hindicator
      have hnone : "-?:,[]\x7b\x7d#&*!|>'\"%@\x60".toList.contains d = false := by
        rw [← Bool.not_eq_true, List.contains_iff_mem]
        intro hmem
        have hlist : ∀ e ∈ "-?:,[]\x7b\x7d#&*!|>'\"%@\x60".toList, e = '-' ∨ e = '?' ∨ e = ':' ∨
            e ∈ "#,[]\x7b\x7d&*!|>'\"%@\x60".toList := List.all_iff_forall_prop.1 (by decide)
        rcases hlist d hmem with h | h | h | h
        · exact hindicator.1 h
        · exact hindicator.2.1 h
        · exact hindicator.2.2 h
        · exact hmark h
      simp only [startsPlain, hsolid, hnone, Bool.or_self, Bool.not_false, Bool.true_or]
  have hindicator : ∀ e, e = '-' ∨ e = '?' ∨ e = ':' → ¬ (d = e ∧ atGap t = true) := by
    rintro e he ⟨rfl, hopen⟩
    rw [hgap he] at hopen
    cases hopen
  rw [readToken?, hrest]
  simp only [hflow, hmarker, hstarts, hne '[' (by decide), hne '\x7b' (by decide),
    hne ']' (by decide), hne '\x7d' (by decide), hne ',' (by decide), hne '*' (by decide),
    hne '&' (by decide), hne '!' (by decide), hne '|' (by decide), hne '>' (by decide),
    hne '\'' (by decide), hne '"' (by decide), hne '%' (by decide), and_false, false_and, if_false,
    Bool.false_eq_true, Bool.false_or, if_true]
  rw [if_neg (hindicator '-' (.inl rfl)), if_neg (hindicator '?' (.inr (.inl rfl))),
    if_neg (hindicator ':' (.inr (.inr rfl)))]

end Steps

section Entries

/-- The state at the start of an entry: the tokens so far, the last one first. The mapping may have
begun with an entry before. -/
def atEntry (begun : Bool) (c : Cursor) (ts : List Token) : Scanner where
  cursor := c
  tokens := ts
  count := ts.length
  indent := if begun then 0 else -1
  indents := if begun then [-1] else []
  candidates := [none]
  keyAllowed := true
  finished := false

/-- The state behind the key of an entry, which is a candidate. -/
def behindKey (begun : Bool) (c : Cursor) (key : Text) (ts : List Token) : Scanner :=
  { atEntry begun (c.skip key.length) (.scalar key .plain :: ts) with
    candidates := [some ⟨begun, ts.length, c.index, c.line, c.column⟩]
    keyAllowed := false }

/-- The state behind the colon of an entry. -/
def behindColon (c : Cursor) (ts : List Token) : Scanner :=
  { atEntry true c ts with keyAllowed := false }

/-- The next token is the one at the start of an entry. -/
structure Reaches (total : Nat) (rest : Text) (begun : Bool) (ts : List Token) (s : Scanner) :
    Prop where
  opened : s.finished = false
  next : ∃ c, toNextToken (s.cursor.rest.length + 1) s = atEntry begun c ts ∧ c.At total rest ∧
    c.column = 0

/-- A word that may be the key of an entry. -/
structure IsKey (key : Text) : Prop where
  ne_nil : key ≠ []
  alpha : ∀ d ∈ key, d.isAlpha = true
  short : Text.byteLength key ≤ 1024

variable {begun : Bool} {ts : List Token} {key : Text}

/-- A mapping at the start of the line is closed at no column. -/
theorem unroll_column (h : s.indent ≤ 0) (column : Nat) : s.unroll column = s := by
  have hcolumn : ¬ (column : Int) < s.indent := by omega
  rw [unroll]
  cases s.indents with
  | nil => rfl
  | cons outer indents => simp [closeBlocks, hcolumn]

theorem indent_atEntry (begun : Bool) (c : Cursor) (ts : List Token) :
    (atEntry begun c ts).indent ≤ 0 := by
  cases begun with
  | true => exact Int.le_refl 0
  | false => exact Int.le_of_lt (by simp [atEntry])

/-- The key of an entry is read. -/
theorem step?_key (hkey : IsKey key) (h : Reaches total (key ++ ':' :: ' ' :: rest) begun ts s) :
    ∃ c, c.At total (key ++ ':' :: ' ' :: rest) ∧ c.column = 0 ∧
      s.step? total = some (behindKey begun c key ts) := by
  obtain ⟨c, hnext, hat, hzero⟩ := h.next
  refine ⟨c, hat, hzero, ?_⟩
  refine step?_of hnext hat rfl ?_ hat.skip
  obtain ⟨d, word, hcons⟩ := List.exists_cons_of_ne_nil hkey.ne_nil
  have hd : d.isAlpha = true := hkey.alpha d (hcons ▸ List.mem_cons_self)
  have hrest : c.rest = d :: (word ++ ':' :: ' ' :: rest) := by rw [hat.rest_eq, hcons]; rfl
  have hmark : d ∉ "#,[]\x7b\x7d&*!|>'\"%@\x60".toList := by
    intro hmem
    have hnone : ∀ e ∈ "#,[]\x7b\x7d&*!|>'\"%@\x60".toList, e.isAlpha = false := by
      simp only [← Bool.not_eq_true']
      exact List.all_eq_true.1 (by decide)
    rw [hnone d hmem] at hd
    cases hd
  have hgap : d = '-' ∨ d = '?' ∨ d = ':' → atGap (word ++ ':' :: ' ' :: rest) = false := by
    rintro (rfl | rfl | rfl)
    · cases hd
    · cases hd
    · cases hd
  have hcandidate : (atEntry begun c ts).addCandidate? = some { atEntry begun c ts with
      candidates := [some ⟨begun, ts.length, c.index, c.line, c.column⟩] } := by
    cases begun with
    | true => simp [addCandidate?, dropCandidate?, atEntry, inFlow, hzero]
    | false => simp [addCandidate?, dropCandidate?, atEntry, inFlow]
  rw [unroll_column (indent_atEntry begun c ts), readToken?_plain hrest rfl
    (atAnyMarker_of_isAlpha (hcons ▸ hat) hd) ⟨isBlank_of_isAlpha hd, isBreak_of_isAlpha hd⟩ hmark
    hgap, readPlain?, hcandidate, Option.bind_eq_bind, Option.bind_some]
  have hplain := fun indent => plain?_key indent hkey.ne_nil hkey.alpha hat
  change ((plain? false _ c).bind _) = _
  rw [hplain]
  rfl

/-- The tokens in front of an entry: those so far, or the start of the mapping. -/
def opening (begun : Bool) (ts : List Token) : List Token :=
  if begun then ts else .blockMapping :: ts

/-- The colon behind a key is read, and makes it one. -/
theorem step?_colon (hkey : IsKey key) (hat : c.At total (key ++ ':' :: ' ' :: rest))
    (hzero : c.column = 0) :
    (behindKey begun c key ts).step? total = some (behindColon ((c.skip key.length).skip 1)
      (.value :: .scalar key .plain :: .key :: opening begun ts)) := by
  have hcolon : (c.skip key.length).At total (':' :: ' ' :: rest) := hat.skip
  have hspaces : (behindKey begun c key ts).cursor.At total ([] ++ ':' :: ' ' :: rest) := hcolon
  have hnext : toNextToken ((behindKey begun c key ts).cursor.rest.length + 1)
      (behindKey begun c key ts) = behindKey begun c key ts := by
    rw [toNextToken_spaces _ hspaces (by simp) (by simp) (by simp [StartsSolid, isBlank, isBreak])
      (by simp), List.length_nil, Cursor.skip_zero]
  have hpositive : 0 < (c.skip key.length).column :=
    Nat.add_pos_right _ (List.length_pos_iff.2 hkey.ne_nil)
  have hindex : (c.skip key.length).index ≤ c.index + 1024 := by
    have htake : c.rest.take key.length = key := by rw [hat.rest_eq, List.take_left' rfl]
    have hshort := hkey.short
    simp only [Cursor.skip, htake]
    omega
  have hstale : (behindKey begun c key ts).dropStale? = some (behindKey begun c key ts) := by
    have hfresh : isStale (behindKey begun c key ts) ⟨begun, ts.length, c.index, c.line, c.column⟩ =
        false := by
      have hline : (c.skip key.length).line = c.line := rfl
      have hnear : ¬ c.index + 1024 < (c.skip key.length).index := by omega
      simp [isStale, behindKey, atEntry, hline, hnear]
    have hcandidates : (behindKey begun c key ts).candidates =
      [some ⟨begun, ts.length, c.index, c.line, c.column⟩] := rfl
    simp [dropStale?, hcandidates, hfresh]
    rfl
  refine step?_of hnext hcolon hstale ?_ hcolon.next
  have hindent : (behindKey begun c key ts).indent ≤ 0 := indent_atEntry begun c ts
  have hmarker : (behindKey begun c key ts).cursor.atAnyMarker = false :=
    atAnyMarker_of_column hpositive
  rw [Cursor.atAnyMarker, Bool.or_eq_false_iff] at hmarker
  have hread : (behindKey begun c key ts).readToken? = (behindKey begun c key ts).readValue? := by
    have hrest : (behindKey begun c key ts).cursor.rest = ':' :: ' ' :: rest := hcolon.rest_eq
    rw [readToken?, hrest]
    simp [hmarker, atGap, isBlank]
  rw [unroll_column hindent, hread]
  cases begun with
  | true =>
    simp [readValue?, behindKey, atEntry, insertAt, openBlock, behindColon, opening, hzero, inFlow,
      allowKey, skip, push]
  | false =>
    have hlater : ts.length + 1 + 1 - ts.length = 2 := by omega
    simp [readValue?, behindKey, atEntry, insertAt, openBlock, behindColon, opening, hzero, inFlow,
      allowKey, skip, push, hlater]

end Entries

section Values

/-- Nothing follows, or a key. -/
def StartsKey (t : Text) : Prop := ∀ d ∈ t.head?, d.isAlpha = true

theorem StartsKey.startsSolid (h : StartsKey t) : StartsSolid t := fun d hd =>
  ⟨isBlank_of_isAlpha (h d hd), isBreak_of_isAlpha (h d hd)⟩

theorem StartsKey.head_ne (h : StartsKey t) {d : Char} (hd : d.isAlpha = false) :
    t.head? ≠ some d := by
  intro hhead
  rw [h d hhead] at hd
  cases hd

variable {ts : List Token}

/-- The way to the next token leaves the start of a line as it is. -/
theorem toNextToken_start (fuel : Nat) (hrest : StartsKey rest) (hat : s.cursor.At total rest) :
    toNextToken (fuel + 1) s = s := by
  have hspaces : s.cursor.At total ([] ++ rest) := hat
  rw [toNextToken_spaces fuel hspaces (by simp) (hrest.head_ne (by decide)) hrest.startsSolid
    (hrest.head_ne (by decide)), List.length_nil, Cursor.skip_zero]

/-- The next entry is at the start of the line. -/
theorem reaches_start (hrest : StartsKey rest) (hat : c.At total rest) (hzero : c.column = 0) :
    Reaches total rest true ts (atEntry true c ts) where
  opened := rfl
  next := ⟨c, toNextToken_start _ hrest hat, hat, hzero⟩

/-- The next entry is behind the end of the line. -/
theorem reaches_feed (hrest : StartsKey rest) (hat : c.At total ('\n' :: rest)) :
    Reaches total rest true ts (behindColon c ts) where
  opened := rfl
  next := by
    have hcursor : (behindColon c ts).cursor.At total ('\n' :: rest) := hat
    obtain ⟨c', hat', hzero, hstep⟩ :=
      toNextToken_feed (behindColon c ts).cursor.rest.length hcursor
    refine ⟨c', ?_, hat', hzero⟩
    rw [hstep, hcursor.rest_eq]
    exact toNextToken_start _ hrest hat'

/-- The value of an entry follows the space behind the colon. -/
theorem step?_value {d : Char} {u : Text} (hat : c.At total (' ' :: d :: t))
    (hd : isBlank d = false ∧ isBreak d = false) (hcomment : d ≠ '#')
    (hread : (behindColon (c.skip 1) ts).readToken? = some s) (hat' : s.cursor.At total u) :
    (behindColon c ts).step? total = some s := by
  have hspaces : (behindColon c ts).cursor.At total ([' '] ++ d :: t) := hat
  have hnext : toNextToken ((behindColon c ts).cursor.rest.length + 1) (behindColon c ts) =
      behindColon (c.skip 1) ts := by
    rw [toNextToken_spaces _ hspaces (by simp [isSpace]) (by simp)
      (fun e he => by rw [← Option.some.inj he]; exact hd) (by simpa using hcomment)]
    rfl
  refine step?_of hnext hat.next rfl ?_ hat'
  rw [unroll_column (Int.le_refl 0), hread]

/-- A text that is read as a scalar where it is the value of an entry. -/
structure Writes (written t : Text) (style : Style) : Prop where
  allowed : ∀ d ∈ written, isAllowed d = true
  step : ∀ {total : Nat} {c : Cursor} {ts : List Token} {rest : Text}, StartsKey rest →
    c.At total (' ' :: (written ++ rest)) → 0 < c.column →
    ∃ s, (behindColon c ts).step? total = some s ∧
      Reaches total rest true (.scalar t style :: ts) s

end Values

section Runs

/-- An entry: its key, its value as it is written, and the scalar that the value is read as. -/
structure Entry where
  key : Text
  written : Text
  value : Text
  style : Style

namespace Entry

/-- The text of an entry. -/
def text (e : Entry) : Text := entry e.key e.written

/-- The tokens of an entry. -/
def tokens (e : Entry) : List Token :=
  [.key, .scalar e.key .plain, .value, .scalar e.value e.style]

/-- An entry that is read as what it says. -/
structure IsRead (e : Entry) : Prop where
  key : IsKey e.key
  value : Writes e.written e.value e.style

end Entry

theorem startsKey_entries {es : List Entry} (h : ∀ e ∈ es, e.IsRead) :
    StartsKey (es.flatMap Entry.text) := by
  cases es with
  | nil => intro d hd; cases hd
  | cons e es =>
    have hkey := (h e List.mem_cons_self).key
    obtain ⟨d, word, hcons⟩ := List.exists_cons_of_ne_nil hkey.ne_nil
    intro f hf
    rw [List.flatMap_cons, Entry.text, entry, hcons] at hf
    obtain rfl : d = f := Option.some.inj hf
    exact hkey.alpha d (hcons ▸ List.mem_cons_self)

/-- An entry takes three steps. -/
theorem run_entry {begun : Bool} {ts : List Token} {e : Entry} (fuel : Nat) (he : e.IsRead)
    (hrest : StartsKey rest) (h : Reaches total (e.text ++ rest) begun ts s) :
    ∃ s', Reaches total rest true (e.tokens.reverse ++ opening begun ts) s' ∧
      run total (fuel + 3) s = run total fuel s' := by
  rw [Entry.text, entry, List.append_assoc] at h
  obtain ⟨c, hat, hzero, hkey⟩ := step?_key he.key h
  have hcolon : (behindKey begun c e.key ts).step? total = _ := step?_colon he.key hat hzero
  have hbehind : ((c.skip e.key.length).skip 1).At total (' ' :: (e.written ++ rest)) :=
    hat.skip.next
  obtain ⟨s', hvalue, hreaches⟩ : ∃ s',
      (behindColon ((c.skip e.key.length).skip 1)
        (.value :: .scalar e.key .plain :: .key :: opening begun ts)).step? total = some s' ∧
      Reaches total rest true (e.tokens.reverse ++ opening begun ts) s' :=
    he.value.step hrest hbehind (Nat.succ_pos _)
  refine ⟨s', hreaches, ?_⟩
  rw [run_step h.opened hkey, run_step rfl hcolon, run_step rfl hvalue]

/-- At the end of the text the mapping and the stream end. -/
theorem run_end {ts : List Token} (fuel : Nat) (h : Reaches total [] true ts s) :
    run total (fuel + 2) s = ts.reverse ++ [.blockEnd, .streamEnd] := by
  obtain ⟨c, hnext, hat, hzero⟩ := h.next
  have hend : (atEntry true c ts).readEnd? = some
      { atEntry true c (.streamEnd :: .blockEnd :: ts) with
        indent := -1, indents := [], keyAllowed := false, finished := true } := by
    simp [readEnd?, unroll, atEntry, closeBlocks, inFlow, push, dropCandidate?, Cursor.newLine,
      hzero, dropStale?, allowKey]
  have hstep : s.step? total = some
      { atEntry true c (.streamEnd :: .blockEnd :: ts) with
        indent := -1, indents := [], keyAllowed := false, finished := true } := by
    refine step?_of hnext hat rfl ?_ hat
    rw [unroll_column (indent_atEntry true c ts), readToken?]
    have hrest : (atEntry true c ts).cursor.rest = [] := hat.rest_eq
    simp only [hrest]
    exact hend
  rw [run_step h.opened hstep, run]
  simp [atEntry]

/-- The entries that are left are read to the end. -/
theorem run_entries {ts : List Token} {es : List Entry} (hes : ∀ e ∈ es, e.IsRead)
    (h : Reaches total (es.flatMap Entry.text) true ts s) (hfuel : 3 * es.length + 2 ≤ fuel) :
    run total fuel s = ts.reverse ++ es.flatMap Entry.tokens ++ [.blockEnd, .streamEnd] := by
  induction es generalizing ts s fuel with
  | nil =>
    obtain ⟨fuel, rfl⟩ := Nat.exists_eq_add_of_le' hfuel
    rw [List.flatMap_nil, List.append_nil]
    exact run_end fuel h
  | cons e es ih =>
    have hes' := fun f hf => hes f (List.mem_cons_of_mem e hf)
    rw [List.length_cons] at hfuel
    obtain ⟨fuel, rfl⟩ := Nat.exists_eq_add_of_le' (show 3 ≤ fuel by omega)
    obtain ⟨s', hreaches, hrun⟩ :=
      run_entry fuel (hes e List.mem_cons_self) (startsKey_entries hes') h
    rw [hrun, ih hes' hreaches (by omega), List.reverse_append, List.reverse_reverse]
    simp [opening]

theorem length_le_entries {es : List Entry} (hes : ∀ e ∈ es, e.IsRead) :
    3 * es.length ≤ (es.flatMap Entry.text).length := by
  induction es with
  | nil => exact Nat.zero_le _
  | cons e es ih =>
    have hkey := List.length_pos_iff.2 (hes e List.mem_cons_self).key.ne_nil
    have hrest := ih fun f hf => hes f (List.mem_cons_of_mem e hf)
    rw [List.flatMap_cons, Entry.text, entry, List.length_append, List.length_append,
      List.length_cons, List.length_cons, List.length_cons]
    omega

/-- A text of characters that are allowed can be read to its end. -/
theorem readable_of_allowed (piece index : Nat) (h : ∀ d ∈ t, isAllowed d = true) :
    readable piece index t = index + Text.byteLength t := by
  induction t generalizing piece index with
  | nil => rfl
  | cons d t ih =>
    have hd : isAllowed d = true := h d List.mem_cons_self
    simp only [readable, hd, if_true]
    rw [ih _ _ fun e he => h e (List.mem_cons_of_mem d he), Text.byteLength_cons, Nat.add_assoc]

theorem isAllowed_of_isAlpha {d : Char} (h : d.isAlpha = true) : isAllowed d = true := by
  have hprint : 0x20 ≤ d.toNat ∧ d.toNat ≤ 0x7E := by
    change (decide ('A'.val ≤ d.val ∧ d.val ≤ 'Z'.val) ||
      (decide ('a'.val ≤ d.val) && decide (d.val ≤ 'z'.val))) = true at h
    simp only [Bool.or_eq_true, Bool.and_eq_true, decide_eq_true_eq, UInt32.le_iff_toNat_le] at h
    have hcode : d.val.toNat = d.toNat := rfl
    have hcapitalA : 'A'.val.toNat = 65 := rfl
    have hcapitalZ : 'Z'.val.toNat = 90 := rfl
    have ha : 'a'.val.toNat = 97 := rfl
    have hz : 'z'.val.toNat = 122 := rfl
    omega
  simp [isAllowed, hprint]

theorem isAllowed_entries {es : List Entry} (hes : ∀ e ∈ es, e.IsRead) :
    ∀ d ∈ es.flatMap Entry.text, isAllowed d = true := by
  intro d hd
  obtain ⟨e, he, hd⟩ := List.mem_flatMap.1 hd
  rcases List.mem_append.1 hd with hd | hd
  · exact isAllowed_of_isAlpha ((hes e he).key.alpha d hd)
  · rcases List.mem_cons.1 hd with rfl | hd
    · rfl
    · rcases List.mem_cons.1 hd with rfl | hd
      · rfl
      · exact (hes e he).value.allowed d hd

/-- Entries at the start of their lines make a block mapping. -/
theorem tokens_entries {es : List Entry} (hne : es ≠ []) (hes : ∀ e ∈ es, e.IsRead) :
    tokens (es.flatMap Entry.text) =
      .blockMapping :: es.flatMap Entry.tokens ++ [.blockEnd, .streamEnd] := by
  have hstart : Reaches (Text.byteLength (es.flatMap Entry.text)) (es.flatMap Entry.text) false []
      (Scanner.start (es.flatMap Entry.text)) :=
    ⟨rfl, _, toNextToken_start _ (startsKey_entries hes) (Cursor.at_start _), Cursor.at_start _,
      rfl⟩
  have hlength := length_le_entries hes
  rw [tokens, readable_of_allowed 0 0 (isAllowed_entries hes), Nat.zero_add]
  obtain ⟨e, es, rfl⟩ := List.exists_cons_of_ne_nil hne
  have hes' := fun f hf => hes f (List.mem_cons_of_mem e hf)
  rw [List.length_cons] at hlength
  generalize hfuel : ((e :: es).flatMap Entry.text).length + 2 = fuel
  obtain ⟨fuel, rfl⟩ := Nat.exists_eq_add_of_le' (show 3 ≤ fuel by omega)
  obtain ⟨s', hreaches, hrun⟩ :=
    run_entry fuel (hes e List.mem_cons_self) (startsKey_entries hes') hstart
  rw [hrun, run_entries hes' hreaches (by omega)]
  simp [opening]

end Runs

end RouteModule.Yaml
