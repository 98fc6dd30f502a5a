import RouteModule.Yaml.Tree

/-!
The tokens of collections and scalars are read as nodes. Where the token that makes a key of a name is
missing, the reading breaks off behind the name, and where it breaks off no tokens are left.
-/

namespace RouteModule.Yaml

variable {handles : List Handle} {ts us : List Token} {α : Type}

/-- What comes of reading the tokens in front of `rest`: something, or else nothing is left. -/
def Comes (rest : List Token) (r : α × Source) : Option α → Prop
  | some x => r = (x, ⟨rest, [], []⟩)
  | none => r.2 = ⟨[], [], []⟩

/-- Tokens are read as something, whatever follows them, or else the reading breaks off in them. -/
def Yields (read : Nat → Source → α × Source) (ts : List Token) (o : Option α) : Prop :=
  ∀ fuel rest, 2 * ts.length ≤ fuel → Comes rest (read fuel ⟨ts ++ rest, [], []⟩) o

/-- A node starts with the token. -/
inductive StartsNode : Token → Prop where
  | scalar (t : Text) (style : Style) : StartsNode (.scalar t style)
  | sequence : StartsNode .flowSequence
  | mapping : StartsNode .flowMapping

/-- Tokens are read as a node, or else the reading breaks off in them. -/
structure ReadsNode (ts : List Token) (o : Option Node) : Prop where
  start : ∃ t us, ts = t :: us ∧ StartsNode t
  yields : ∀ handles block, Yields (readNode handles block false) ts o

theorem readsNode_scalar (t : Text) (style : Style) :
    ReadsNode [.scalar t style] (some (scalarNode none t style)) where
  start := ⟨_, [], rfl, .scalar t style⟩
  yields handles block fuel rest hfuel := by
    obtain ⟨fuel, rfl⟩ := Nat.exists_eq_add_of_le' hfuel
    delta readNode
    rfl

section Lists

variable {o : Option α} {p : Option (List α)} {x : α} {rest : List Token}

/-- Something that is read in front of more of its kind. -/
def consRead (o : Option α) (p : Option (List α)) : Option (List α) :=
  o.bind fun x => p.map (x :: ·)

theorem Comes.cons {r : List α × Source} (h : Comes rest r p) :
    Comes rest (x :: r.1, r.2) (consRead (some x) p) := by
  cases p with
  | none => exact h
  | some xs =>
    have hr : r = (xs, ⟨rest, [], []⟩) := h
    rw [hr]
    rfl

end Lists

section Sequences

theorem readNode_flowSequence (block : Bool) (fuel : Nat) (ts : List Token) :
    readNode handles block false (fuel + 1) ⟨.flowSequence :: ts, [], []⟩ =
      (.sequence (readFlowItems handles true fuel ⟨ts, [], []⟩).1,
        (readFlowItems handles true fuel ⟨ts, [], []⟩).2) := by
  delta readNode readFlowItems
  rfl

theorem readFlowItems_stop (fuel : Nat) :
    (readFlowItems handles false fuel ⟨[], [], []⟩).2 = ⟨[], [], []⟩ := by
  cases fuel <;> (delta readFlowItems; rfl)

theorem readFlowItems_more (fuel : Nat) (ts : List Token) :
    readFlowItems handles false fuel ⟨.flowEntry :: ts, [], []⟩ =
      readFlowItems handles true fuel ⟨ts, [], []⟩ := by
  cases fuel with
  | zero => delta readFlowItems; rfl
  | succ fuel =>
    cases ts with
    | nil => delta readFlowItems; rfl
    | cons t ts => cases t <;> (delta readFlowItems; rfl)

theorem readFlowItems_item {t : Token} (ht : StartsNode t) (fuel : Nat) (ts : List Token) :
    readFlowItems handles true (fuel + 1) ⟨t :: ts, [], []⟩ =
      ((readNode handles false false fuel ⟨t :: ts, [], []⟩).1 ::
        (readFlowItems handles false fuel (readNode handles false false fuel ⟨t :: ts, [], []⟩).2).1,
        (readFlowItems handles false fuel
          (readNode handles false false fuel ⟨t :: ts, [], []⟩).2).2) := by
  cases ht <;> (delta readFlowItems readNode; rfl)

theorem readsNode_sequence {o : Option (List Node)}
    (h : ∀ handles, Yields (readFlowItems handles true) ts o) :
    ReadsNode (.flowSequence :: ts) (o.map .sequence) where
  start := ⟨_, ts, rfl, .sequence⟩
  yields handles block fuel rest hfuel := by
    rw [List.length_cons] at hfuel
    obtain ⟨fuel, rfl⟩ := Nat.exists_eq_add_of_le' (show 1 ≤ fuel by omega)
    have hitems := h handles fuel rest (by omega)
    rw [List.cons_append, readNode_flowSequence]
    cases o with
    | none => exact hitems
    | some items =>
      have heq : readFlowItems handles true fuel ⟨ts ++ rest, [], []⟩ = (items, ⟨rest, [], []⟩) :=
        hitems
      rw [heq]
      rfl

theorem yields_itemsEnd (first : Bool) :
    Yields (readFlowItems handles first) [.flowSequenceEnd] (some []) := by
  intro fuel rest hfuel
  obtain ⟨fuel, rfl⟩ := Nat.exists_eq_add_of_le' hfuel
  delta readFlowItems
  rfl

theorem yields_itemsMore {p : Option (List Node)} (h : Yields (readFlowItems handles true) ts p) :
    Yields (readFlowItems handles false) (.flowEntry :: ts) p := by
  intro fuel rest hfuel
  rw [List.length_cons] at hfuel
  rw [List.cons_append, readFlowItems_more]
  exact h fuel rest (by omega)

theorem yields_item {o : Option Node} {p : Option (List Node)} (h : ReadsNode ts o)
    (hmore : Yields (readFlowItems handles false) us p) (hus : us ≠ []) :
    Yields (readFlowItems handles true) (ts ++ us) (consRead o p) := by
  intro fuel rest hfuel
  obtain ⟨t, ts, rfl, ht⟩ := h.start
  have hpos := List.length_pos_iff.2 hus
  rw [List.length_append, List.length_cons] at hfuel
  obtain ⟨fuel, rfl⟩ := Nat.exists_eq_add_of_le' (show 1 ≤ fuel by omega)
  have hnode := h.yields handles false fuel (us ++ rest) (by rw [List.length_cons]; omega)
  rw [List.append_assoc, List.cons_append, readFlowItems_item ht]
  rw [List.cons_append] at hnode
  generalize readNode handles false false fuel ⟨t :: (ts ++ (us ++ rest)), [], []⟩ = r at hnode
  cases o with
  | none =>
    have hstop : r.2 = ⟨[], [], []⟩ := hnode
    rw [hstop]
    exact readFlowItems_stop fuel
  | some x =>
    obtain rfl : r = (x, ⟨us ++ rest, [], []⟩) := hnode
    exact (hmore fuel rest (by omega)).cons

end Sequences

section Mappings

theorem readNode_flowMapping (block : Bool) (fuel : Nat) (ts : List Token) :
    readNode handles block false (fuel + 1) ⟨.flowMapping :: ts, [], []⟩ =
      (.mapping (readFlowEntries handles true fuel ⟨ts, [], []⟩).1,
        (readFlowEntries handles true fuel ⟨ts, [], []⟩).2) := by
  delta readNode readFlowEntries
  rfl

theorem readFlowEntries_stop (fuel : Nat) :
    (readFlowEntries handles false fuel ⟨[], [], []⟩).2 = ⟨[], [], []⟩ := by
  cases fuel <;> (delta readFlowEntries; rfl)

theorem readFlowEntries_more (fuel : Nat) (ts : List Token) :
    readFlowEntries handles false fuel ⟨.flowEntry :: ts, [], []⟩ =
      readFlowEntries handles true fuel ⟨ts, [], []⟩ := by
  cases fuel with
  | zero => delta readFlowEntries; rfl
  | succ fuel =>
    cases ts with
    | nil => delta readFlowEntries; rfl
    | cons t ts => cases t <;> (delta readFlowEntries; rfl)

/-- A name that is a key, and its value. -/
theorem readFlowEntries_entry {t : Token} (ht : StartsNode t) (fuel : Nat) (w : Text) (style : Style)
    (ts : List Token) :
    readFlowEntries handles true (fuel + 3)
      ⟨.key :: .scalar w style :: .value :: t :: ts, [], []⟩ =
      ((scalarNode none w style, (readNode handles false false fuel ⟨t :: ts, [], []⟩).1) ::
        (readFlowEntries handles false (fuel + 2)
          (readNode handles false false fuel ⟨t :: ts, [], []⟩).2).1,
        (readFlowEntries handles false (fuel + 2)
          (readNode handles false false fuel ⟨t :: ts, [], []⟩).2).2) := by
  cases ht <;> (delta readFlowEntries readNode; rfl)

/-- Behind a name that is no key the reading breaks off. -/
theorem readFlowEntries_unkeyed (fuel : Nat) (w : Text) (style : Style) (ts : List Token) :
    (readFlowEntries handles true (fuel + 3) ⟨.scalar w style :: .value :: ts, [], []⟩).2 =
      ⟨[], [], []⟩ := by
  delta readFlowEntries
  rfl

theorem readsNode_mapping {o : Option (List (Node × Node))}
    (h : ∀ handles, Yields (readFlowEntries handles true) ts o) :
    ReadsNode (.flowMapping :: ts) (o.map .mapping) where
  start := ⟨_, ts, rfl, .mapping⟩
  yields handles block fuel rest hfuel := by
    rw [List.length_cons] at hfuel
    obtain ⟨fuel, rfl⟩ := Nat.exists_eq_add_of_le' (show 1 ≤ fuel by omega)
    have hentries := h handles fuel rest (by omega)
    rw [List.cons_append, readNode_flowMapping]
    cases o with
    | none => exact hentries
    | some es =>
      have heq : readFlowEntries handles true fuel ⟨ts ++ rest, [], []⟩ = (es, ⟨rest, [], []⟩) :=
        hentries
      rw [heq]
      rfl

theorem yields_entriesEnd (first : Bool) :
    Yields (readFlowEntries handles first) [.flowMappingEnd] (some []) := by
  intro fuel rest hfuel
  obtain ⟨fuel, rfl⟩ := Nat.exists_eq_add_of_le' hfuel
  delta readFlowEntries
  rfl

theorem yields_entriesMore {p : Option (List (Node × Node))}
    (h : Yields (readFlowEntries handles true) ts p) :
    Yields (readFlowEntries handles false) (.flowEntry :: ts) p := by
  intro fuel rest hfuel
  rw [List.length_cons] at hfuel
  rw [List.cons_append, readFlowEntries_more]
  exact h fuel rest (by omega)

theorem yields_entry {o : Option Node} {p : Option (List (Node × Node))} {w : Text} {style : Style}
    (h : ReadsNode ts o) (hmore : Yields (readFlowEntries handles false) us p) :
    Yields (readFlowEntries handles true) (.key :: .scalar w style :: .value :: (ts ++ us))
      (consRead (o.map fun y => (scalarNode none w style, y)) p) := by
  intro fuel rest hfuel
  obtain ⟨t, ts, rfl, ht⟩ := h.start
  simp only [List.length_cons, List.length_append] at hfuel
  obtain ⟨fuel, rfl⟩ := Nat.exists_eq_add_of_le' (show 3 ≤ fuel by omega)
  have hnode := h.yields handles false fuel (us ++ rest) (by rw [List.length_cons]; omega)
  have htokens : .key :: .scalar w style :: .value :: (t :: ts ++ us) ++ rest =
      .key :: .scalar w style :: .value :: t :: (ts ++ (us ++ rest)) := by simp
  rw [htokens, readFlowEntries_entry ht]
  rw [List.cons_append] at hnode
  generalize readNode handles false false fuel ⟨t :: (ts ++ (us ++ rest)), [], []⟩ = r at hnode
  cases o with
  | none =>
    have hstop : r.2 = ⟨[], [], []⟩ := hnode
    change (readFlowEntries handles false (fuel + 2) r.2).2 = _
    rw [hstop]
    exact readFlowEntries_stop (fuel + 2)
  | some x =>
    obtain rfl : r = (x, ⟨us ++ rest, [], []⟩) := hnode
    exact (hmore (fuel + 2) rest (by omega)).cons

theorem yields_unkeyed {w : Text} {style : Style} :
    Yields (readFlowEntries handles true) (.scalar w style :: .value :: ts) none := by
  intro fuel rest hfuel
  simp only [List.length_cons] at hfuel
  obtain ⟨fuel, rfl⟩ := Nat.exists_eq_add_of_le' (show 3 ≤ fuel by omega)
  exact readFlowEntries_unkeyed fuel w style _

end Mappings

end RouteModule.Yaml
