import RouteModule.Yaml.Tree

/-!
What the readers of nodes leave. Each of them takes tokens off the front and leaves the others, or none
of them, so tokens that do not come to an end are no whole document.
-/

namespace RouteModule.Yaml

variable {handles : List Handle}

theorem Source.under_subset {s : Source} {anchor : Option Text} {read : Source → Node × Source}
    {ts : List Token} (h : ∀ a t, (read ⟨s.tokens, a, t⟩).2.tokens ⊆ ts) :
    (s.under anchor read).2.tokens ⊆ ts := by
  cases anchor with
  | none => exact h s.anchors s.targets
  | some a =>
    have hput : ∀ (s : Source) n node, (s.put n node).tokens = s.tokens := by
      intro s n node
      unfold Source.put
      split <;> rfl
    simp only [Source.under, hput]
    exact h _ _

theorem subset_of_properties? {p : Properties} {ts rest : List Token}
    (h : properties? handles ts = some (p, rest)) : rest ⊆ ts := by
  unfold properties? at h
  split at h
  · obtain ⟨t, -, heq⟩ := Option.map_eq_some_iff.1 h
    cases heq
    simp
  · obtain ⟨t, -, heq⟩ := Option.map_eq_some_iff.1 h
    cases heq
    simp
  · cases h
    simp
  · obtain ⟨t, -, heq⟩ := Option.map_eq_some_iff.1 h
    cases heq
    simp
  · cases h
    simp

/-- No reader of nodes leaves tokens that were not there. -/
structure Shrinks (handles : List Handle) (fuel : Nat) : Prop where
  node : ∀ block loose s, (readNode handles block loose fuel s).2.tokens ⊆ s.tokens
  items : ∀ s, (readItems handles fuel s).2.tokens ⊆ s.tokens
  looseItems : ∀ s, (readLooseItems handles fuel s).2.tokens ⊆ s.tokens
  part : ∀ s, (readPart handles fuel s).2.tokens ⊆ s.tokens
  entries : ∀ s, (readEntries handles fuel s).2.tokens ⊆ s.tokens
  flowPart : ∀ finish s, (readFlowPart handles finish fuel s).2.tokens ⊆ s.tokens
  flowValue : ∀ finish s, (readFlowValue handles finish fuel s).2.tokens ⊆ s.tokens
  flowEntries : ∀ first s, (readFlowEntries handles first fuel s).2.tokens ⊆ s.tokens
  flowItems : ∀ first s, (readFlowItems handles first fuel s).2.tokens ⊆ s.tokens
  pair : ∀ s, (readPair handles fuel s).2.tokens ⊆ s.tokens

theorem subset_of_eq_cons {t : Token} {ts us : List Token} (h : us = t :: ts) : ts ⊆ us := by
  rw [h]
  exact List.subset_cons_self t ts

theorem tail_subset {t : Token} {ts us : List Token} (h : t :: ts ⊆ us) : ts ⊆ us :=
  List.Subset.trans (List.subset_cons_self t ts) h

/-- Only a comma is taken off in front of an entry that is not the first. -/
theorem subset_of_comma {first : Bool} {ts us : List Token}
    (h : (if first then some ts else match ts with
      | .flowEntry :: rest => some rest
      | _ => none) = some us) : us ⊆ ts := by
  split at h
  · rw [Option.some.inj h]
    exact List.Subset.refl _
  · split at h
    · rw [Option.some.inj h]
      exact List.subset_cons_self _ _
    · cases h

section Readers

variable {fuel : Nat} {s : Source} (h : Shrinks handles fuel)

include h

theorem node_subset (block loose : Bool) :
    (readNode handles block loose (fuel + 1) s).2.tokens ⊆ s.tokens := by
  rw [readNode]
  split
  · next a rest hrest =>
    split
    · exact subset_of_eq_cons hrest
    · simp [Source.stop, Source.onto]
  · split
    · simp [Source.stop, Source.onto]
    · next p ts hp =>
      have hts := subset_of_properties? hp
      extract_lets blank
      have hblank : blank.2.tokens ⊆ s.tokens := by
        unfold blank
        split
        · exact Source.under_subset fun _ _ => hts
        · simp [Source.stop, Source.onto]
      clear_value blank
      split
      · simp [Source.stop, Source.onto]
      · exact Source.under_subset fun _ _ => tail_subset hts
      · exact Source.under_subset fun _ _ => List.Subset.trans (h.flowItems _ _) (tail_subset hts)
      · exact Source.under_subset fun _ _ => List.Subset.trans (h.flowEntries _ _) (tail_subset hts)
      · split
        · exact Source.under_subset fun _ _ => List.Subset.trans (h.items _) (tail_subset hts)
        · exact hblank
      · split
        · exact Source.under_subset fun _ _ => List.Subset.trans (h.entries _) (tail_subset hts)
        · exact hblank
      · split
        · exact Source.under_subset fun _ _ => List.Subset.trans (h.looseItems _) hts
        · exact hblank
      · exact hblank

theorem items_subset : (readItems handles (fuel + 1) s).2.tokens ⊆ s.tokens := by
  rw [readItems]
  split
  · next rest hrest => exact subset_of_eq_cons hrest
  · next rest hrest =>
    dsimp only
    refine List.Subset.trans (h.items _) ?_
    have hsub : rest ⊆ s.tokens := subset_of_eq_cons hrest
    split
    · exact hsub
    · exact hsub
    · exact List.Subset.trans (h.node _ _ _) hsub
  · simp [Source.stop, Source.onto]

theorem looseItems_subset : (readLooseItems handles (fuel + 1) s).2.tokens ⊆ s.tokens := by
  rw [readLooseItems]
  split
  · simp
  · next rest hrest =>
    have hsub : rest ⊆ s.tokens := subset_of_eq_cons hrest
    refine List.Subset.trans (h.looseItems _) ?_
    split
    · exact hsub
    · split
      · exact hsub
      · exact List.Subset.trans (h.node _ _ _) hsub
  · simp

theorem part_subset : (readPart handles (fuel + 1) s).2.tokens ⊆ s.tokens := by
  rw [readPart]
  split
  · simp
  · exact h.node _ _ _

theorem entries_subset : (readEntries handles (fuel + 1) s).2.tokens ⊆ s.tokens := by
  rw [readEntries]
  split
  · next rest hrest => exact subset_of_eq_cons hrest
  · next rest hrest =>
    have hsub : rest ⊆ s.tokens := subset_of_eq_cons hrest
    have hkey : (readPart handles fuel (s.onto rest)).2.tokens ⊆ s.tokens :=
      List.Subset.trans (h.part _) hsub
    refine List.Subset.trans (h.entries _) ?_
    split
    · next value hvalue =>
      exact List.Subset.trans (h.part _) (List.Subset.trans (subset_of_eq_cons hvalue) hkey)
    · exact hkey
    · exact hkey
  · simp [Source.stop, Source.onto]

theorem flowPart_subset (finish : Token) :
    (readFlowPart handles finish (fuel + 1) s).2.tokens ⊆ s.tokens := by
  rw [readFlowPart]
  split
  · simp
  · exact h.node _ _ _

theorem flowValue_subset (finish : Token) :
    (readFlowValue handles finish (fuel + 1) s).2.tokens ⊆ s.tokens := by
  rw [readFlowValue]
  split
  · next rest hrest =>
    exact List.Subset.trans (h.flowPart _ _) (subset_of_eq_cons hrest)
  · simp
  · simp

theorem flowEntries_subset (first : Bool) :
    (readFlowEntries handles first (fuel + 1) s).2.tokens ⊆ s.tokens := by
  rw [readFlowEntries]
  split
  · next rest hrest => exact subset_of_eq_cons hrest
  · extract_lets tokens
    have hall : ∀ ts, tokens = some ts → ts ⊆ s.tokens := fun _ => subset_of_comma
    clear_value tokens
    split
    · simp [Source.stop, Source.onto]
    · next rest => exact List.Subset.trans (List.subset_cons_self _ _) (hall _ rfl)
    · next ts _ =>
      have hts := hall ts rfl
      dsimp only
      refine List.Subset.trans (h.flowEntries _ _) ?_
      split
      · refine List.Subset.trans (h.flowValue _ _) ?_
        split
        · next heq => exact tail_subset (heq ▸ hts)
        · next heq => exact List.Subset.trans (h.flowPart _ _) (tail_subset (heq ▸ hts))
        · exact List.Subset.trans (h.node _ _ _) hts
      · next hother =>
        split
        · exact absurd rfl (hother _)
        · exact absurd rfl (hother _)
        · split
          · exact List.Subset.trans (h.node _ _ _) hts
          · exact List.Subset.trans (h.node _ _ _) hts

theorem flowItems_subset (first : Bool) :
    (readFlowItems handles first (fuel + 1) s).2.tokens ⊆ s.tokens := by
  rw [readFlowItems]
  split
  · next rest hrest => exact subset_of_eq_cons hrest
  · extract_lets tokens
    have hall : ∀ ts, tokens = some ts → ts ⊆ s.tokens := fun _ => subset_of_comma
    clear_value tokens
    split
    · simp [Source.stop, Source.onto]
    · next rest => exact tail_subset (hall _ rfl)
    · next ts _ =>
      have hts := hall ts rfl
      refine List.Subset.trans (h.flowItems _ _) ?_
      split
      · exact List.Subset.trans (h.pair _) (tail_subset hts)
      · exact List.Subset.trans (h.node _ _ _) hts

theorem pair_subset : (readPair handles (fuel + 1) s).2.tokens ⊆ s.tokens := by
  rw [readPair]
  split
  next key s' hkey =>
  have hs' : s'.tokens ⊆ s.tokens := by
    split at hkey
    · next rest hrest =>
      cases hkey
      exact subset_of_eq_cons hrest
    · split at hkey
      · cases hkey
        exact List.drop_subset _ _
      · rw [← show _ = s' from congrArg Prod.snd hkey]
        exact h.node _ _ _
  split
  next value s'' hvalue =>
  have hs'' : s''.tokens ⊆ s.tokens := by
    rw [← show _ = s'' from congrArg Prod.snd hvalue]
    exact List.Subset.trans (h.flowValue _ _) hs'
  split <;> exact hs''

end Readers

theorem shrinks (fuel : Nat) : Shrinks handles fuel := by
  have hstop : ∀ s : Source, s.stop.tokens ⊆ s.tokens := fun s => List.nil_subset _
  induction fuel with
  | zero =>
    constructor <;> intros <;> exact hstop _
  | succ fuel ih =>
    exact ⟨fun block loose s => node_subset ih block loose, fun s => items_subset ih,
      fun s => looseItems_subset ih, fun s => part_subset ih, fun s => entries_subset ih,
      fun finish s => flowPart_subset ih finish, fun finish s => flowValue_subset ih finish,
      fun first s => flowEntries_subset ih first, fun first s => flowItems_subset ih first,
      fun s => pair_subset ih⟩

theorem subset_of_directives? {versioned : Bool} {found : List Handle} {ts rest : List Token}
    (h : directives? ts versioned handles = some (found, rest)) : rest ⊆ ts := by
  induction ts generalizing versioned handles with
  | nil =>
    cases h
    exact List.Subset.refl _
  | cons t ts ih =>
    unfold directives? at h
    split at h
    · next heq =>
      obtain ⟨-, rfl⟩ := List.cons.inj heq
      split at h
      · cases h
      · exact List.Subset.trans (ih h) (List.subset_cons_self _ _)
    · next heq =>
      obtain ⟨-, rfl⟩ := List.cons.inj heq
      split at h
      · cases h
      · exact List.Subset.trans (ih h) (List.subset_cons_self _ _)
    · cases h
      exact List.Subset.refl _

/-- What is left behind the root was there before. -/
theorem readRoot_subset (ts : List Token) : (readRoot ts).2.tokens ⊆ ts := by
  unfold readRoot
  extract_lets fuel source
  have hread : ∀ handles rest, rest ⊆ ts →
      (readNode handles true false fuel (source rest)).2.tokens ⊆ ts := fun handles rest hrest =>
    List.Subset.trans ((shrinks fuel).node true false _) hrest
  split
  · exact List.Subset.refl _
  case h_5 => exact hread _ _ (List.Subset.refl _)
  all_goals
    split
    · next heq =>
      have hrest := tail_subset (subset_of_directives? heq)
      split
      · exact hrest
      · exact hread _ _ hrest
    · exact List.nil_subset _

/-- Tokens without an end are no whole document. -/
theorem isOver_readRoot {ts : List Token} (h : .streamEnd ∉ ts) :
    isOver (readRoot ts).2.tokens = false := by
  rw [isOver, decide_eq_false_iff_not]
  intro hover
  have hmem : .streamEnd ∈
      (readRoot ts).2.tokens.dropWhile (fun t => decide (t = .documentEnd)) := by
    rw [hover]
    exact List.mem_singleton.2 rfl
  exact h (readRoot_subset ts ((List.dropWhile_suffix _).subset hmem))

end RouteModule.Yaml
