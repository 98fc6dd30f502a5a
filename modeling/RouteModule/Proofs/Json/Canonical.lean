import RouteModule.Proofs.Document.Reading
import RouteModule.Proofs.Json.Grammar
import RouteModule.Template.Meaning

/-!
The text of a JSON value as its one written form: it is JSON that is read as the value, but for numbers
that are not read where they are written; no other value has the same text; and it holds no control, so
that it can stand anywhere in a line.
-/

namespace RouteModule

/-- No character is a control below the space. -/
def Text.Printed (t : Text) : Prop := ∀ c ∈ t, 32 ≤ c.toNat

namespace Text

variable {t u : Text} {c : Char}

theorem printed_nil : Printed [] := by simp [Printed]

theorem printed_cons_iff : Printed (c :: t) ↔ 32 ≤ c.toNat ∧ Printed t := List.forall_mem_cons

theorem printed_append_iff : Printed (t ++ u) ↔ Printed t ∧ Printed u := List.forall_mem_append

theorem printed_of_isDigit (h : isDigit c = true) : 32 ≤ c.toNat := by
  have hdigit : '0'.toNat ≤ c.toNat := by
    simp only [isDigit, Bool.and_eq_true, decide_eq_true_eq] at h
    exact h.1
  exact Nat.le_trans (by decide) hdigit

theorem printed_hexPadded (width n : Nat) : Printed (hexPadded width n) := by
  have hdigit : ∀ d < 16, 32 ≤ (hexDigit d).toNat := by decide
  induction width generalizing n with
  | zero => exact printed_nil
  | succ width ih =>
    have hlast := hdigit (n % 16) (Nat.mod_lt n (by decide))
    exact printed_append_iff.2 ⟨ih _, printed_cons_iff.2 ⟨hlast, printed_nil⟩⟩

end Text

open Text

/-- A number is written with digits, a point, an exponent and signs. -/
theorem Number.printed_text (n : Number) : Printed n.text := by
  have hn := n.valid_numeral
  have hdigits : ∀ t : Text, (∀ c ∈ t, isDigit c = true) → Printed t :=
    fun t ht c hc => printed_of_isDigit (ht c hc)
  rw [← n.text_numeral]
  generalize n.numeral = m at hn
  have hexponent : Printed ((m.exponent.map Json.Exponent.text).getD []) := by
    cases he : m.exponent with
    | none => exact printed_nil
    | some e =>
      have hvalid := hn.exponent e he
      have hmark : 32 ≤ e.mark.toNat := by
        rcases hvalid.mark with hmark | hmark <;> rw [hmark] <;> decide
      have hsign : Printed e.sign := by
        rcases hvalid.sign with hsign | hsign | hsign <;> rw [hsign] <;> simp [Printed]
      exact printed_cons_iff.2
        ⟨hmark, printed_append_iff.2 ⟨hsign, hdigits _ hvalid.digits⟩⟩
  refine printed_append_iff.2 ⟨?_, printed_append_iff.2 ⟨hdigits _ hn.whole,
    printed_append_iff.2 ⟨?_, hexponent⟩⟩⟩
  · rw [Json.Numeral.sign]
    split <;> simp [Printed]
  · split
    · exact printed_nil
    · exact printed_cons_iff.2 ⟨by decide, hdigits _ hn.places⟩

namespace Json

section Printed

/-- Behind a backslash a control is written with letters and digits. -/
theorem printed_escape (c : Char) : Printed (escape c) := by
  unfold escape
  split
  case h_8 =>
    split
    · exact printed_append_iff.2 ⟨by simp [Printed], printed_hexPadded 4 _⟩
    · next h => exact printed_cons_iff.2 ⟨Nat.le_of_not_lt h, printed_nil⟩
  all_goals simp [Printed]

theorem printed_renderText (t : Text) : Printed (renderText t) := by
  have hbody : Printed (t.flatMap escape) := by
    intro d hd
    obtain ⟨c, -, hc⟩ := List.mem_flatMap.1 hd
    exact printed_escape c d hc
  have hquote : 32 ≤ '"'.toNat := by decide
  exact printed_cons_iff.2
    ⟨hquote, printed_append_iff.2 ⟨hbody, printed_cons_iff.2 ⟨hquote, printed_nil⟩⟩⟩

mutual

/-- The text of a value holds no control. -/
theorem printed_render : (v : Json) → Printed v.render
  | null => by simp [render, Printed]
  | bool true => by simp [render, Printed]
  | bool false => by simp [render, Printed]
  | number n => n.printed_text
  | text t => printed_renderText t
  | array items => printed_cons_iff.2 ⟨by decide, printed_renderItems items⟩
  | object members => printed_cons_iff.2 ⟨by decide, printed_renderMembers members⟩

theorem printed_renderItems : (items : List Json) → Printed (renderItems items)
  | [] => by simp [renderItems, Printed]
  | [v] => printed_append_iff.2 ⟨printed_render v, by simp [Printed]⟩
  | v :: w :: rest => printed_append_iff.2
      ⟨printed_render v, printed_cons_iff.2 ⟨by decide, printed_renderItems (w :: rest)⟩⟩

theorem printed_renderMembers : (members : List (Text × Json)) → Printed (renderMembers members)
  | [] => by simp [renderMembers, Printed]
  | [(name, v)] => by
    simp only [renderMembers, printed_append_iff, printed_cons_iff]
    exact ⟨⟨printed_renderText name, by decide, printed_render v⟩, by decide, printed_nil⟩
  | (name, v) :: m :: rest => by
    simp only [renderMembers, printed_append_iff, printed_cons_iff]
    exact ⟨⟨printed_renderText name, by decide, printed_render v⟩, by decide,
      printed_renderMembers (m :: rest)⟩

end

end Printed

section Injective

/-- Where two values are written, each in front of what does not go on with a number, they have the
same text and the same follows them. -/
theorem render_split {v w : Json} {r s : Text} (h : v.render ++ r = w.render ++ s)
    (hr : EndsNumber r) (hs : EndsNumber s) : v.render = w.render ∧ r = s ∧ v.spelt = w.spelt := by
  -- The common text is read once as each of the two values, with enough fuel for the longer one.
  have hv := readValue_render v _ r (Nat.le_max_left v.render.length w.render.length) hr
  have hw := readValue_render w _ s (Nat.le_max_right v.render.length w.render.length) hs
  rw [h, hw, Prod.mk.injEq, Option.some.injEq] at hv
  obtain ⟨hspelt, rfl⟩ := hv
  exact ⟨List.append_cancel_right h, rfl, hspelt.symm⟩

theorem renderItems_split {v w : Json} {vs ws : List Json}
    (h : renderItems (v :: vs) = renderItems (w :: ws)) (hempty : vs = [] ↔ ws = []) :
    v.render = w.render ∧ renderItems vs = renderItems ws := by
  cases vs with
  | nil =>
    obtain rfl := hempty.1 rfl
    have hend := endsNumber_cons (by decide : Text.isDigit ']' = false ∧ _) []
    exact ⟨(render_split h hend hend).1, rfl⟩
  | cons v' vs =>
    cases ws with
    | nil => exact absurd (hempty.2 rfl) (by simp)
    | cons w' ws =>
      have hend := endsNumber_cons (by decide : Text.isDigit ',' = false ∧ _)
      obtain ⟨hrender, hrest, -⟩ := render_split h (hend _) (hend _)
      exact ⟨hrender, (List.cons.inj hrest).2⟩

theorem renderMembers_split {name : Text} {v w : Json} {ms ns : List (Text × Json)}
    (h : renderMembers ((name, v) :: ms) = renderMembers ((name, w) :: ns))
    (hempty : ms = [] ↔ ns = []) : v.render = w.render ∧ renderMembers ms = renderMembers ns := by
  cases ms with
  | nil =>
    obtain rfl := hempty.1 rfl
    simp only [renderMembers, List.append_assoc, List.cons_append] at h
    have hrest := (List.cons.inj (List.append_cancel_left h)).2
    have hend := endsNumber_cons (by decide : Text.isDigit '\x7d' = false ∧ _) []
    exact ⟨(render_split hrest hend hend).1, rfl⟩
  | cons m ms =>
    cases ns with
    | nil => exact absurd (hempty.2 rfl) (by simp)
    | cons n ns =>
      simp only [renderMembers, List.append_assoc, List.cons_append] at h
      have hrest := (List.cons.inj (List.append_cancel_left h)).2
      have hend := endsNumber_cons (by decide : Text.isDigit ',' = false ∧ _)
      obtain ⟨hrender, hrest, -⟩ := render_split hrest (hend _) (hend _)
      exact ⟨hrender, (List.cons.inj hrest).2⟩

/-- Only a number spells the node of one. -/
theorem exists_of_spelt {n : Number} {v : Json} (h : v.spelt = (number n).spelt) :
    ∃ m, v = number m := by
  cases v with
  | number m => exact ⟨m, rfl⟩
  | _ => cases hn : n.reread? <;> simp only [spelt, numberNode, hn, Node.atom.injEq, reduceCtorEq,
      and_false] at h

mutual

/-- A value is told by its text and the node that it spells. -/
theorem eq_of_spelt : (v w : Json) → (∀ n ∈ v.numbers, n.InRange) → (∀ n ∈ w.numbers, n.InRange) →
    v.spelt = w.spelt → v.render = w.render → v = w
  | number n, w, hv, hw, hspelt, h => by
    obtain ⟨m, rfl⟩ := exists_of_spelt hspelt.symm
    rw [(Number.text_inj (hv n (by simp [numbers])) (hw m (by simp [numbers]))).1 h]
  | null, w, _, _, hspelt, _ => by
    cases w with
    | null => rfl
    | number m => cases (exists_of_spelt hspelt).choose_spec
    | _ => simp only [spelt, Node.atom.injEq, reduceCtorEq, and_false] at hspelt
  | bool b, w, _, _, hspelt, _ => by
    cases w with
    | bool c => rw [Atom.bool.inj (Node.atom.inj hspelt).2]
    | number m => cases (exists_of_spelt hspelt).choose_spec
    | _ => simp only [spelt, Node.atom.injEq, reduceCtorEq, and_false] at hspelt
  | text t, w, _, _, hspelt, _ => by
    cases w with
    | text u => rw [(Node.atom.inj hspelt).1]
    | number m => cases (exists_of_spelt hspelt).choose_spec
    | _ => simp only [spelt, Node.atom.injEq, reduceCtorEq, and_false] at hspelt
  | array items, w, hv, hw, hspelt, h => by
    cases w with
    | number m => cases (exists_of_spelt hspelt).choose_spec
    | array others =>
      rw [eq_of_speltItems items others hv hw (by simpa [spelt] using hspelt)
        (by simpa [render] using h)]
    | _ => simp only [spelt, reduceCtorEq] at hspelt
  | object members, w, hv, hw, hspelt, h => by
    cases w with
    | number m => cases (exists_of_spelt hspelt).choose_spec
    | object others =>
      rw [eq_of_speltMembers members others hv hw (by simpa [spelt] using hspelt)
        (by simpa [render] using h)]
    | _ => simp only [spelt, reduceCtorEq] at hspelt

theorem eq_of_speltItems : (vs ws : List Json) → (∀ n ∈ numbersOfItems vs, n.InRange) →
    (∀ n ∈ numbersOfItems ws, n.InRange) → speltItems vs = speltItems ws →
    renderItems vs = renderItems ws → vs = ws
  | [], ws, _, _, hspelt, _ => by cases ws <;> simp_all [speltItems]
  | v :: vs, [], _, _, hspelt, _ => by simp [speltItems] at hspelt
  | v :: vs, w :: ws, hv, hw, hspelt, h => by
    rw [numbersOfItems, List.forall_mem_append] at hv hw
    rw [speltItems, speltItems, List.cons.injEq] at hspelt
    have hempty : vs = [] ↔ ws = [] := by
      cases vs <;> cases ws <;> simp_all [speltItems]
    have hsplit := renderItems_split h hempty
    rw [eq_of_spelt v w hv.1 hw.1 hspelt.1 hsplit.1,
      eq_of_speltItems vs ws hv.2 hw.2 hspelt.2 hsplit.2]

theorem eq_of_speltMembers : (ms ns : List (Text × Json)) →
    (∀ n ∈ numbersOfMembers ms, n.InRange) → (∀ n ∈ numbersOfMembers ns, n.InRange) →
    speltMembers ms = speltMembers ns → renderMembers ms = renderMembers ns → ms = ns
  | [], ns, _, _, hspelt, _ => by cases ns <;> simp_all [speltMembers]
  | (name, v) :: ms, [], _, _, hspelt, _ => by simp [speltMembers] at hspelt
  | (name, v) :: ms, (other, w) :: ns, hv, hw, hspelt, h => by
    rw [numbersOfMembers, List.forall_mem_append] at hv hw
    rw [speltMembers, speltMembers, List.cons.injEq, Prod.mk.injEq, Node.atom.injEq] at hspelt
    obtain ⟨⟨⟨rfl, -⟩, hspelt⟩, hrest⟩ := hspelt
    have hempty : ms = [] ↔ ns = [] := by
      cases ms <;> cases ns <;> simp_all [speltMembers]
    have hsplit := renderMembers_split h hempty
    rw [eq_of_spelt v w hv.1 hw.1 hspelt hsplit.1,
      eq_of_speltMembers ms ns hv.2 hw.2 hrest hsplit.2]

end

end Injective

mutual

/-- A value with each of its numbers as it is read where it is written, if they all are in range. -/
def reread? : Json → Option Json
  | number n => n.reread?.map number
  | array items => (rereadItems? items).map array
  | object members => (rereadMembers? members).map object
  | v => some v

/-- The items of an array, reread. -/
def rereadItems? : List Json → Option (List Json)
  | [] => some []
  | v :: rest => do return (← reread? v) :: (← rereadItems? rest)

/-- The members of an object, reread. -/
def rereadMembers? : List (Text × Json) → Option (List (Text × Json))
  | [] => some []
  | (name, v) :: rest => do return (name, ← reread? v) :: (← rereadMembers? rest)

end

section Reread

variable (d : Dialect)

theorem names_of_rereadMembers? {ms ns : List (Text × Json)} (h : rereadMembers? ms = some ns) :
    ns.map Prod.fst = ms.map Prod.fst := by
  induction ms generalizing ns with
  | nil =>
    cases h
    rfl
  | cons m ms ih =>
    simp only [rereadMembers?, Option.bind_eq_bind, Option.bind_eq_some_iff, Option.pure_def,
      Option.some.injEq] at h
    obtain ⟨v, -, ns, hns, rfl⟩ := h
    rw [List.map_cons, List.map_cons, ih hns]

/-- Rereading keeps the order of the names. -/
theorem sorted_of_rereadMembers? {ms ns : List (Text × Json)} (h : rereadMembers? ms = some ns)
    (hms : Table.Sorted ms) : Table.Sorted ns := by
  have hnames : (ms.map Prod.fst).Pairwise (Text.before · ·) := List.pairwise_map.2 hms
  rw [← names_of_rereadMembers? h] at hnames
  exact List.pairwise_map.1 hnames

theorem json_unreadable (depth : Nat) : d.json depth .unreadable = throw .malformed := by
  cases depth with
  | zero => delta Dialect.json; rfl
  | succ depth => delta Dialect.json; rfl

mutual

/-- What a value spells is read as the value reread. -/
theorem json_spelt : (v : Json) → v.Ordered → (depth : Nat) → v.nesting ≤ depth →
    d.json depth v.spelt = v.reread?.elim (throw .malformed) pure
  | null, _, depth, _ => Dialect.json_atom d depth _ _
  | bool b, _, depth, _ => Dialect.json_atom d depth _ _
  | number n, _, depth, _ => by
    rw [spelt, reread?]
    cases n.reread? with
    | none => exact json_unreadable d depth
    | some m => exact Dialect.json_atom d depth _ _
  | text t, _, depth, _ => Dialect.json_atom d depth _ _
  | array items, h, 0, hdepth => by simp [nesting] at hdepth
  | array items, h, depth + 1, hdepth => by
    rw [nesting, Nat.add_le_add_iff_right] at hdepth
    rw [Ordered] at h
    rw [spelt, Dialect.json_sequence, mapM_spelt items h depth hdepth, reread?]
    cases rereadItems? items <;> rfl
  | object members, h, 0, hdepth => by simp [nesting] at hdepth
  | object [], h, depth + 1, hdepth => Dialect.json_mapping_nil d depth
  | object ((name, v) :: members), h, depth + 1, hdepth => by
    rw [nesting, Nat.add_le_add_iff_right, nestingOfMembers, Nat.max_le] at hdepth
    rw [Ordered, OrderedMembers] at h
    rw [spelt, speltMembers, Dialect.json_mapping_cons, Dialect.entryName_atom, pure_bind,
      json_spelt v h.2.1 depth hdepth.1, entries_spelt members h.2.2 depth hdepth.2, reread?]
    -- The members are in order already, so that putting them into an object changes nothing.
    cases hms : rereadMembers? ((name, v) :: members) with
    | none =>
      rw [rereadMembers?] at hms
      cases hv : v.reread? with
      | none => rfl
      | some v' =>
        cases hm : rereadMembers? members with
        | none => rfl
        | some ms => simp [hv, hm] at hms
    | some ns =>
      have hsorted := sorted_of_rereadMembers? hms h.1
      simp only [rereadMembers?, Option.bind_eq_bind, Option.bind_eq_some_iff, Option.pure_def,
        Option.some.injEq] at hms
      obtain ⟨v', hv, ms, hm, rfl⟩ := hms
      simp only [hv, hm, Option.elim_some, pure_bind, Option.map_some, ofMembers,
        Table.ofList_eq_self hsorted]

theorem mapM_spelt : (items : List Json) → OrderedItems items → (depth : Nat) →
    nestingOfItems items ≤ depth → (speltItems items).mapM (d.json depth) =
      (rereadItems? items).elim (throw .malformed) pure
  | [], _, _, _ => rfl
  | v :: items, h, depth, hdepth => by
    rw [nestingOfItems, Nat.max_le] at hdepth
    rw [OrderedItems] at h
    rw [speltItems, List.mapM_cons, json_spelt v h.1 depth hdepth.1,
      mapM_spelt items h.2 depth hdepth.2, rereadItems?]
    cases v.reread? <;> cases rereadItems? items <;> rfl

theorem entries_spelt : (members : List (Text × Json)) → OrderedMembers members → (depth : Nat) →
    nestingOfMembers members ≤ depth → d.entries (d.json depth) (speltMembers members) =
      (rereadMembers? members).elim (throw .malformed) pure
  | [], _, _, _ => rfl
  | (name, v) :: members, h, depth, hdepth => by
    rw [nestingOfMembers, Nat.max_le] at hdepth
    rw [OrderedMembers] at h
    rw [speltMembers, Dialect.entries, Dialect.entryName_atom, pure_bind,
      json_spelt v h.1 depth hdepth.1, entries_spelt members h.2 depth hdepth.2, rereadMembers?]
    cases v.reread? <;> cases rereadMembers? members <;> rfl

end

mutual

/-- A value is reread as itself just if each of its numbers is. -/
theorem reread?_eq_some_iff : (v : Json) → (v.reread? = some v ↔ ∀ n ∈ v.numbers, n.ReadsBack)
  | null => by simp [reread?, numbers]
  | bool b => by simp [reread?, numbers]
  | number n => by simp [reread?, numbers, Number.ReadsBack]
  | text t => by simp [reread?, numbers]
  | array items => by
    rw [reread?, numbers, ← rereadItems?_eq_some_iff items]
    simp
  | object members => by
    rw [reread?, numbers, ← rereadMembers?_eq_some_iff members]
    simp

theorem rereadItems?_eq_some_iff : (items : List Json) →
    (rereadItems? items = some items ↔ ∀ n ∈ numbersOfItems items, n.ReadsBack)
  | [] => by simp [rereadItems?, numbersOfItems]
  | v :: items => by
    rw [numbersOfItems, List.forall_mem_append, ← reread?_eq_some_iff v,
      ← rereadItems?_eq_some_iff items, rereadItems?]
    cases v.reread? <;> cases rereadItems? items <;> simp

theorem rereadMembers?_eq_some_iff : (members : List (Text × Json)) →
    (rereadMembers? members = some members ↔ ∀ n ∈ numbersOfMembers members, n.ReadsBack)
  | [] => by simp [rereadMembers?, numbersOfMembers]
  | (name, v) :: members => by
    rw [numbersOfMembers, List.forall_mem_append, ← reread?_eq_some_iff v,
      ← rereadMembers?_eq_some_iff members, rereadMembers?]
    cases v.reread? <;> cases rereadMembers? members <;> simp

end

end Reread

/-- Reads a JSON text as a value. -/
def ofText (t : Text) : Except Fault Json :=
  let d := Dialect.ofDocument .json (document t)
  (document t).read (d.json d.limit)

/-- A value as it is held: the names of an object ascend, integers have 64 bits, and floating point
numbers are finite. -/
structure Sound (v : Json) : Prop where
  ordered : v.Ordered
  inRange : ∀ n ∈ v.numbers, n.InRange

variable {v w : Json}

/-- The text of a value writes the node that the value spells. -/
theorem spellsDocument_render (v : Json) : SpellsDocument v.spelt v.render := by
  have hspells := spellsDocument_of_complete (t := v.render) (by rw [document_render])
  rwa [document_render] at hspells

/-- The text of a value is read as the value reread. -/
theorem ofText_of_render (hv : v.Ordered) (hdepth : v.nesting ≤ 127) :
    ofText v.render = v.reread?.elim (.error .malformed) .ok := by
  have hread := json_spelt (Dialect.ofDocument .json ⟨v.spelt, true, #[], 0⟩) v hv 127 hdepth
  have hlimit : (Dialect.ofDocument .json ⟨v.spelt, true, #[], 0⟩).limit = 127 := rfl
  rw [ofText, document_render, Document.read, hlimit]
  dsimp only
  rw [hread]
  cases v.reread? <;> rfl

/-- Values with the same text are the same. -/
theorem render_eq_iff (hv : v.Sound) (hw : w.Sound) : v.render = w.render ↔ v = w := by
  constructor
  · intro h
    have hend : EndsNumber [] := by simp [EndsNumber]
    have hspelt := (render_split (congrArg (· ++ []) h) hend hend).2.2
    exact eq_of_spelt v w hv.inRange hw.inRange hspelt h
  · rintro rfl
    rfl

/-- Objects are the same just if they have the same member under each name; of several members of one
name the last counts. -/
theorem ofMembers_eq_iff {members others : List (Text × Json)} :
    ofMembers members = ofMembers others ↔
      ∀ name, members.reverse.lookup name = others.reverse.lookup name := by
  rw [ofMembers, ofMembers, Json.object.injEq]
  constructor
  · intro h name
    rw [← Table.lookup_ofList, h, Table.lookup_ofList]
  · intro h
    refine (Table.Sorted.ofList members).ext (Table.Sorted.ofList others) fun name => ?_
    rw [Table.lookup_ofList, Table.lookup_ofList, h]

/-- The text of a value is read as the value just if every number is read where it is written. -/
theorem ofText_of_render_iff (hv : v.Ordered) (hdepth : v.nesting ≤ 127) :
    ofText v.render = .ok v ↔ ∀ n ∈ v.numbers, n.ReadsBack := by
  rw [ofText_of_render hv hdepth, ← reread?_eq_some_iff]
  cases v.reread? <;> simp

/-- The text of a value is JSON, and is read as the value with each number as it is read where it is
written, unless too much is nested in it. An integer is read back. A floating point number is the one
nearest to its text, in whichever notation that is, and it is read back if it has few digits and a small
exponent. Two values have the same text only if they are the same, as two objects are that have the same
members, in whatever order they were put in. And no text that a template embeds holds a control. -/
theorem render_canonical (hv : v.Sound) (hw : w.Sound) :
    (SpellsDocument v.spelt v.render ∧
      (v.nesting ≤ 127 → ofText v.render = v.reread?.elim (.error .malformed) .ok ∧
        (ofText v.render = .ok v ↔ ∀ n ∈ v.numbers, n.ReadsBack))) ∧
    ((∀ i, .integer i ∈ v.numbers → (Number.integer i).ReadsBack) ∧
      ∀ x, .real x ∈ v.numbers → x.numeral.text = x.text ∧ x.numeral.nearest? = some x ∧
        (x.numeral.significand ≤ 2 ^ 53 → x.numeral.scale.natAbs ≤ 22 →
          (Number.real x).ReadsBack)) ∧
    (v.render = w.render ↔ v = w) ∧
    (∀ members others, v = ofMembers members → w = ofMembers others →
      (v.render = w.render ↔
        ∀ name, members.reverse.lookup name = others.reverse.lookup name)) ∧
    ∃ t, Template.applyFilter "json".toList v = some (.text t) ∧ t = v.render ∧
      ∀ c ∈ t, 32 ≤ c.toNat := by
  refine ⟨⟨spellsDocument_render v, fun hdepth => ⟨ofText_of_render hv.ordered hdepth,
    ofText_of_render_iff hv.ordered hdepth⟩⟩, ⟨?_, ?_⟩, render_eq_iff hv hw, ?_, ?_⟩
  · exact fun i hi => Number.readsBack_integer (hv.inRange _ hi)
  · intro x hx
    have hfinite := hv.inRange _ hx
    exact ⟨x.text_numeral, x.nearest?_numeral hfinite, Number.readsBack_of_small hfinite⟩
  · rintro members others rfl rfl
    rw [render_eq_iff hv hw, ofMembers_eq_iff]
  · exact ⟨v.render, rfl, rfl, printed_render v⟩

/-- One half, and `10 ^ 21`, which is written with an exponent. -/
def half : Binary64 := ⟨false, 1022 * 2 ^ 52⟩

def sextillion : Binary64 := ⟨false, 1092 * 2 ^ 52 + 3125794903879504⟩

/-- Members with an integer zero and two floating point zeros, of which the last has a sign or not. -/
def zeroMembers (negative : Bool) : List (Text × Json) := [
  ("zeros".toList, .array [.natural 0, .number (.real ⟨false, 0⟩), .number (.real ⟨negative, 0⟩)]),
  ("sizes".toList, .array [.number (.real half), .number (.real sextillion)]),
  ("line\n".toList, .literal "\"")]

theorem sound_zeroMembers (negative : Bool) : (ofMembers (zeroMembers negative)).Sound := by
  have hmembers : ofMembers (zeroMembers negative) = .object (zeroMembers negative).reverse := by
    cases negative <;> decide +kernel
  have hnumbers : (ofMembers (zeroMembers negative)).numbers =
      [.real half, .real sextillion, .integer 0, .real ⟨false, 0⟩, .real ⟨negative, 0⟩] := by
    cases negative <;> decide +kernel
  have hfinite : half.magnitude < Binary64.infinity ∧ sextillion.magnitude < Binary64.infinity := by
    decide +kernel
  have hzero : 0 < Binary64.infinity ∧ Number.fits 0 = true := by decide +kernel
  refine ⟨?_, ?_⟩
  · have hsorted : (Text.before "line\n".toList "sizes".toList = true ∧
        Text.before "line\n".toList "zeros".toList = true) ∧
        Text.before "sizes".toList "zeros".toList = true := by decide
    rw [hmembers]
    simpa [zeroMembers, Ordered, OrderedMembers, OrderedItems, Table.Sorted, natural, literal]
      using hsorted
  · rw [hnumbers]
    simp [Number.InRange, hfinite, hzero]

/-- The sign of a zero tells two values apart, and the order of their members does not. -/
theorem render_canonical_zeros :
    (ofMembers (zeroMembers true)).Sound ∧ (ofMembers (zeroMembers false).reverse).Sound ∧
      half.text = "0.5".toList ∧ sextillion.text = "1e+21".toList ∧
      ofText (ofMembers (zeroMembers true)).render = .ok (ofMembers (zeroMembers true)) ∧
      (ofMembers (zeroMembers true)).render ≠ (ofMembers (zeroMembers false).reverse).render := by
  have hv := sound_zeroMembers true
  have hreverse : ofMembers (zeroMembers false).reverse = ofMembers (zeroMembers false) := by
    decide +kernel
  have hw : (ofMembers (zeroMembers false).reverse).Sound := by
    rw [hreverse]
    exact sound_zeroMembers false
  obtain ⟨⟨-, hread⟩, -, htext, -⟩ := render_canonical hv hw
  have hdepth : (ofMembers (zeroMembers true)).nesting ≤ 127 := by decide +kernel
  have hnumbers : ∀ n ∈ (ofMembers (zeroMembers true)).numbers, n.ReadsBack := by decide +kernel
  have hne : ofMembers (zeroMembers true) ≠ ofMembers (zeroMembers false).reverse := by
    decide +kernel
  exact ⟨hv, hw, by decide +kernel, by decide +kernel, (hread hdepth).2.2 hnumbers,
    fun h => hne (htext.1 h)⟩

/-- A number of seventeen digits is rounded twice where it is read, and its neighbour is read. -/
theorem ofText_render_neighbour :
    let x : Binary64 := ⟨false, 1028 * 2 ^ 52 + 2708940279983968⟩
    let y : Binary64 := ⟨false, 1028 * 2 ^ 52 + 2708940279983969⟩
    (number (.real x)).Sound ∧ (number (.real x)).nesting ≤ 127 ∧
      (number (.real x)).render = "51.248178375505404".toList ∧
      ofText (number (.real x)).render = .ok (number (.real y)) ∧ x ≠ y := by
  refine ⟨⟨trivial, ?_⟩, ?_⟩
  · have hfinite : 1028 * 2 ^ 52 + 2708940279983968 < Binary64.infinity := by decide +kernel
    simpa [numbers, Number.InRange] using hfinite
  · decide +kernel

end Json

end RouteModule
