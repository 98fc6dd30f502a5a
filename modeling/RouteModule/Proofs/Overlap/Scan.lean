import RouteModule.Proofs.Overlap.Alike
import RouteModule.Proofs.Overlap.Grammar
import RouteModule.Proofs.Overlap.Nodes

/-!
The tokens of a JSON text read as a tree. Whatever a text writes, the scanner comes to its end with
tokens that are read as a tree alike, or else they break off, which `ok` excludes. The induction is on
the tree, and where the scanner stands in the text carries it.
-/

namespace RouteModule.Yaml

open Json (Blank SpellsScalar)

variable {strict ok : Prop} {total limit depth : Nat} {s : Scanner} {a b r v : Text}
  {ts : List Token} {α β : Type}

/-- What has been read, or else nothing, which `ok` excludes. -/
inductive Gives (ok : Prop) (P : α → Prop) : Option α → Prop where
  | given {x : α} (h : P x) : Gives ok P (some x)
  | broken (h : ¬ ok) : Gives ok P none

theorem Gives.map {P : α → Prop} {Q : β → Prop} {f : α → β} {o : Option α} (h : Gives ok P o)
    (hf : ∀ x, P x → Q (f x)) : Gives ok Q (o.map f) := by
  cases h with
  | given hx => exact .given (hf _ hx)
  | broken hok => exact .broken hok

theorem Gives.cons {P : α → Prop} {Q R : List α → Prop} {o : Option α} {p : Option (List α)}
    (h : Gives ok P o) (hp : Gives ok Q p) (hR : ∀ x xs, P x → Q xs → R (x :: xs)) :
    Gives ok R (consRead o p) := by
  cases h with
  | broken hok => exact .broken hok
  | given hx => exact hp.map fun xs hxs => hR _ xs hx hxs

/-- The scanner has read the tokens of a tree and stands behind it. The blanks behind a scalar without
quotes have been read as well. -/
def BehindNode (strict ok : Prop) (total : Nat) (n : Node) (b r : Text) (ts : List Token)
    (depth : Nat) (s : Scanner) : Prop :=
  ∃ us o b', ReadsNode us o ∧ Gives ok (Alike strict n) o ∧
    (b' = b ∧ s.keyAllowed = false ∨ b' = []) ∧ Stands total (b' ++ r) (us.reverse ++ ts) depth s

/-- The scanner reads on over a tree. -/
def ScansNode (strict ok : Prop) (total limit : Nat) (n : Node) (v : Text) : Prop :=
  ∀ ⦃b r : Text⦄ ⦃ts : List Token⦄ ⦃depth : Nat⦄ ⦃s : Scanner⦄, Blank b →
    EndsBare (decide (0 < depth)) r → Stands total (v ++ (b ++ r)) ts (depth + 1) s →
    Proceeds limit ok v.length s (BehindNode strict ok total n b r ts (depth + 1))

/-- The scanner has read what is left of a collection, together with its end. -/
def BehindParts (ok : Prop) (total : Nat) (read : List Handle → Nat → Source → α × Source)
    (P : α → Prop) (r : Text) (ts : List Token) (depth : Nat) (s : Scanner) : Prop :=
  ∃ us o, us ≠ [] ∧ (∀ handles, Yields (read handles) us o) ∧ Gives ok P o ∧
    Stands total r (us.reverse ++ ts) depth s ∧ s.keyAllowed = false

/-- The scanner reads on over items. -/
def ScansItems (strict ok : Prop) (total limit : Nat) (items : List Node) (t : Text) : Prop :=
  ∀ ⦃r : Text⦄ ⦃ts : List Token⦄ ⦃depth : Nat⦄ ⦃s : Scanner⦄,
    Stands total (t ++ r) ts (depth + 2) s →
    Proceeds limit ok t.length s (BehindParts ok total (fun handles => readFlowItems handles true)
      (List.Forall₂ (Alike strict) items) r ts (depth + 1))

/-- Entries that are alike, their names as well as their values. -/
def AlikeEntries (strict : Prop) (es fs : List (Node × Node)) : Prop :=
  List.Forall₂ (SameName strict) es fs ∧
    List.Forall₂ (Alike strict) (es.map Prod.snd) (fs.map Prod.snd)

/-- The scanner reads on over entries where a key may start. -/
def ScansEntries (strict ok : Prop) (total limit : Nat) (es : List (Node × Node)) (t : Text) : Prop :=
  ∀ ⦃r : Text⦄ ⦃ts : List Token⦄ ⦃depth : Nat⦄ ⦃s : Scanner⦄,
    Stands total (t ++ r) ts (depth + 2) s →
    s.keyAllowed = true →
    Proceeds limit ok t.length s (BehindParts ok total (fun handles => readFlowEntries handles true)
      (AlikeEntries strict es) r ts (depth + 1))

section Scalars

theorem scansNode_scalar {n : Node} (hlimit : ok → limit = total) (hstrict : ok → strict)
    (h : SpellsScalar n v) (hclear : strict → QuotedClearly v) :
    ScansNode strict ok total limit n v := by
  intro b r ts depth s hb hr hs
  rcases bare_or_text h with hbare | ⟨k, rfl, hread⟩
  · have hpos : 1 ≤ v.length := by
      obtain ⟨d, u, rfl, -⟩ := hbare.isBare.head
      exact Nat.succ_pos _
    refine (proceeds_bare hlimit hbare.isBare hb hr hs).mono hpos fun s' hs' => ?_
    exact ⟨[.scalar v .plain], _, [], readsNode_scalar v .plain, .given (.bare hbare), .inr rfl, hs'⟩
  · obtain ⟨q, hk, hnode⟩ := Json.body_of_readText hread
    refine (proceeds_text hlimit hk (fun hok => hclear (hstrict hok) k rfl) hs).mono
      (Nat.succ_pos _) ?_
    rintro s' ⟨u, w, rfl, hfolded, hsame, hs', hallowed, -, -⟩
    obtain rfl := hnode u rfl
    exact ⟨[.scalar w .quoted], _, b, readsNode_scalar w .quoted,
      .given (.text hfolded fun h => hsame (hclear h k rfl)), .inl ⟨rfl, hallowed⟩, hs'⟩

end Scalars

section Parts

variable {n : Node} {k rest : Text} {key : Node}

/-- What stands behind a part of a collection. -/
def EndsPart (r : Text) : Prop := ∃ d t, r = d :: t ∧ (d = ',' ∨ d = ']' ∨ d = '\x7d')

theorem EndsPart.endsBare (h : EndsPart r) : EndsBare true (r ++ rest) := by
  obtain ⟨d, t, rfl, hd⟩ := h
  intro e he
  obtain rfl : d = e := Option.some.inj he
  exact ⟨rfl, hd⟩

theorem EndsPart.startsToken (h : EndsPart r) : StartsToken (r ++ rest) := by
  obtain ⟨d, t, rfl, rfl | rfl | rfl⟩ := h <;> exact startsToken_cons (by decide) _

/-- A part of a collection is read with the blanks around it. -/
theorem ScansNode.inside (h : ScansNode strict ok total limit n v)
    (hstart : ∀ t, StartsToken (v ++ t)) (ha : Blank a) (hb : Blank b) (hr : EndsPart r)
    (hs : Stands total (a ++ (v ++ (b ++ (r ++ rest)))) ts (depth + 2) s) :
    Proceeds limit ok v.length s fun s' => ∃ us o, ReadsNode us o ∧ Gives ok (Alike strict n) o ∧
      Stands total (r ++ rest) (us.reverse ++ ts) (depth + 2) s' := by
  have hdepth : 1 < depth + 2 := Nat.le_add_left 2 depth
  have hfirst : Proceeds limit ok 0 s _ := proceeds_blank ha (hstart _) hdepth hs
  refine hfirst.andThen (n := v.length) (Nat.le_of_eq (Nat.zero_add _)) ?_
  rintro s₁ ⟨hs₁, -⟩
  have hends : EndsBare (decide (0 < depth + 1)) (r ++ rest) := by simpa using hr.endsBare
  refine (h hb hends hs₁).bind (n := 0) ?_
  rintro s₂ ⟨us, o, b', hreads, hgives, hb', hs₂⟩
  have hblank : Blank b' := by
    rcases hb' with ⟨rfl, -⟩ | rfl
    · exact hb
    · exact Json.blank_nil
  exact (proceeds_blank hblank hr.startsToken hdepth hs₂).imp fun s' hs' =>
    ⟨us, o, hreads, hgives, hs'.1⟩

/-- Behind an item there is the end, or a comma and more items. -/
def MoreItems (strict ok : Prop) (total limit : Nat) (items : List Node) (r : Text) : Prop :=
  items = [] ∧ r = [']'] ∨ ∃ t, r = ',' :: t ∧ ScansItems strict ok total limit items t

theorem MoreItems.endsPart {items : List Node} (h : MoreItems strict ok total limit items r) :
    EndsPart r := by
  rcases h with ⟨-, rfl⟩ | ⟨t, rfl, -⟩
  · exact ⟨_, _, rfl, by simp⟩
  · exact ⟨_, _, rfl, by simp⟩

theorem MoreItems.proceeds {items : List Node} (h : MoreItems strict ok total limit items r)
    (hlimit : ok → limit = total) (hs : Stands total (r ++ rest) ts (depth + 2) s) :
    Proceeds limit ok r.length s (BehindParts ok total (fun handles => readFlowItems handles false)
      (List.Forall₂ (Alike strict) items) rest ts (depth + 1)) := by
  rcases h with ⟨rfl, rfl⟩ | ⟨t, rfl, hitems⟩
  · refine (proceeds_close hlimit .sequence hs).imp ?_
    rintro s' ⟨hs', hallowed⟩
    exact ⟨[.flowSequenceEnd], _, by simp, fun handles => yields_itemsEnd false, .given .nil, hs',
      hallowed⟩
  · refine (proceeds_comma hlimit hs).andThen (n := t.length) (Nat.le_of_eq (Nat.add_comm 1 _)) ?_
    rintro s₁ ⟨hs₁, -⟩
    refine (hitems hs₁).imp ?_
    rintro s' ⟨us, o, -, hyields, hgives, hs', hallowed⟩
    exact ⟨.flowEntry :: us, o, by simp, fun handles => yields_itemsMore (hyields handles), hgives,
      by simpa using hs', hallowed⟩

theorem scansItems_cons {items : List Node} (hlimit : ok → limit = total)
    (hnode : ScansNode strict ok total limit n v) (hstart : ∀ t, StartsToken (v ++ t))
    (ha : Blank a) (hb : Blank b) (hmore : MoreItems strict ok total limit items r) :
    ScansItems strict ok total limit (n :: items) (a ++ (v ++ (b ++ r))) := by
  intro rest ts depth s hs
  rw [List.append_assoc, List.append_assoc, List.append_assoc] at hs
  refine (hnode.inside hstart ha hb hmore.endsPart hs).andThen (n := r.length)
    (by simp only [List.length_append]; omega) ?_
  rintro s₁ ⟨us, o, hreads, hgives, hs₁⟩
  refine (hmore.proceeds hlimit hs₁).imp ?_
  rintro s' ⟨vs, p, hvs, hyields, hgives', hs', hallowed⟩
  exact ⟨us ++ vs, consRead o p, by simp [hvs],
    fun handles => yields_item hreads (hyields handles) hvs,
    hgives.cons hgives' fun x xs hx hxs => .cons hx hxs, by simpa using hs', hallowed⟩

/-- Behind an entry there is the end, or a comma and more entries. -/
def MoreEntries (strict ok : Prop) (total limit : Nat) (es : List (Node × Node)) (r : Text) : Prop :=
  es = [] ∧ r = ['\x7d'] ∨ ∃ t, r = ',' :: t ∧ ScansEntries strict ok total limit es t

theorem MoreEntries.endsPart {es : List (Node × Node)} (h : MoreEntries strict ok total limit es r) :
    EndsPart r := by
  rcases h with ⟨-, rfl⟩ | ⟨t, rfl, -⟩
  · exact ⟨_, _, rfl, by simp⟩
  · exact ⟨_, _, rfl, by simp⟩

theorem MoreEntries.proceeds {es : List (Node × Node)} (h : MoreEntries strict ok total limit es r)
    (hlimit : ok → limit = total) (hs : Stands total (r ++ rest) ts (depth + 2) s) :
    Proceeds limit ok r.length s (BehindParts ok total
      (fun handles => readFlowEntries handles false) (AlikeEntries strict es) rest ts
      (depth + 1)) := by
  rcases h with ⟨rfl, rfl⟩ | ⟨t, rfl, hentries⟩
  · refine (proceeds_close hlimit .mapping hs).imp ?_
    rintro s' ⟨hs', hallowed⟩
    exact ⟨[.flowMappingEnd], _, by simp, fun handles => yields_entriesEnd false,
      .given ⟨.nil, .nil⟩, hs', hallowed⟩
  · refine (proceeds_comma hlimit hs).andThen (n := t.length) (Nat.le_of_eq (Nat.add_comm 1 _)) ?_
    rintro s₁ ⟨hs₁, hallowed₁⟩
    refine (hentries hs₁ hallowed₁).imp ?_
    rintro s' ⟨us, o, -, hyields, hgives, hs', hallowed⟩
    exact ⟨.flowEntry :: us, o, by simp, fun handles => yields_entriesMore (hyields handles), hgives,
      by simpa using hs', hallowed⟩

/-- The name of an entry is a key, or else the reading breaks off behind it. -/
theorem scansEntries_cons {es : List (Node × Node)} {c d : Text} (hlimit : ok → limit = total)
    (hstrict : ok → strict) (hblank : Blank a ∧ Blank b ∧ Blank c ∧ Blank d)
    (hkey : Json.readText k = (key, some [])) (hclear : strict → IsClear k ∧ OnLine k b)
    (hnode : ScansNode strict ok total limit n v) (hstart : ∀ t, StartsToken (v ++ t))
    (hmore : MoreEntries strict ok total limit es r) :
    ScansEntries strict ok total limit ((key, n) :: es)
      (a ++ ('"' :: (k ++ (b ++ ':' :: (c ++ (v ++ (d ++ r))))))) := by
  intro rest ts depth s hs hallowed
  obtain ⟨ha, hb, hc, hd⟩ := hblank
  obtain ⟨q, hk, hname⟩ := Json.body_of_readText hkey
  have hs' : Stands total (a ++ ('"' :: (k ++ (b ++ ':' :: (c ++ (v ++ (d ++ (r ++ rest))))))))
      ts (depth + 2) s := by simpa using hs
  have hdepth : 1 < depth + 2 := Nat.le_add_left 2 depth
  have hfirst : Proceeds limit ok 0 s _ :=
    proceeds_blank ha (startsToken_cons (by decide) _) hdepth hs'
  refine hfirst.andThen (n := 2 + (v.length + r.length))
    (by simp only [List.length_append, List.length_cons]; omega) ?_
  rintro s₁ ⟨hs₁, hallowed₁, -⟩
  refine (proceeds_name hlimit hk hb (fun hok => hclear (hstrict hok)) (hallowed₁.trans hallowed)
    hs₁).bind ?_
  rintro s₂ ⟨u, w, rfl, hfolded, hsame, hs₂⟩
  obtain rfl := hname u rfl
  rcases hs₂ with hs₂ | ⟨hok, hs₂⟩
  · refine (hnode.inside hstart hc hd hmore.endsPart hs₂).bind ?_
    rintro s₃ ⟨us, o, hreads, hgives, hs₃⟩
    refine (hmore.proceeds hlimit hs₃).imp ?_
    rintro s' ⟨vs, p, -, hyields, hgives', hs', hallowed'⟩
    refine ⟨.key :: .scalar w .quoted :: .value :: (us ++ vs), _, by simp,
      fun handles => yields_entry hreads (hyields handles), ?_, by simpa using hs', hallowed'⟩
    refine (hgives.map (Q := fun e => e.1 = .atom w (.text w) ∧ Alike strict n e.2)
      fun y hy => ⟨rfl, hy⟩).cons hgives' ?_
    rintro ⟨_, y⟩ fs ⟨rfl, hy⟩ ⟨hnames, hvalues⟩
    exact ⟨.cons (.mk hfolded fun h => hsame (hclear h).1) hnames, .cons hy hvalues⟩
  · refine (hnode.inside hstart hc hd hmore.endsPart hs₂).bind ?_
    rintro s₃ ⟨us, o, -, -, hs₃⟩
    refine (hmore.proceeds hlimit hs₃).imp ?_
    rintro s' ⟨vs, p, -, -, -, hs', hallowed'⟩
    exact ⟨.scalar w .quoted :: .value :: (us ++ vs), none, by simp,
      fun handles => yields_unkeyed, .broken hok, by simpa using hs', hallowed'⟩

end Parts

section Collections

variable {n : Node} {t rest : Text}

theorem scansItems_nil (hlimit : ok → limit = total) (ha : Blank a) :
    ScansItems strict ok total limit [] (a ++ [']']) := by
  intro rest ts depth s hs
  rw [List.append_assoc] at hs
  have hfirst : Proceeds limit ok 0 s _ :=
    proceeds_blank ha (startsToken_cons (by decide) _) (Nat.le_add_left 2 depth) hs
  refine hfirst.andThen (n := 1)
    (by simp only [List.length_append, List.length_singleton]; omega) ?_
  rintro s₁ ⟨hs₁, -⟩
  refine (proceeds_close hlimit .sequence hs₁).imp ?_
  rintro s' ⟨hs', hallowed⟩
  exact ⟨[.flowSequenceEnd], _, by simp, fun handles => yields_itemsEnd true, .given .nil, hs',
    hallowed⟩

theorem scansEntries_nil (hlimit : ok → limit = total) (ha : Blank a) :
    ScansEntries strict ok total limit [] (a ++ ['\x7d']) := by
  intro rest ts depth s hs _
  rw [List.append_assoc] at hs
  have hfirst : Proceeds limit ok 0 s _ :=
    proceeds_blank ha (startsToken_cons (by decide) _) (Nat.le_add_left 2 depth) hs
  refine hfirst.andThen (n := 1)
    (by simp only [List.length_append, List.length_singleton]; omega) ?_
  rintro s₁ ⟨hs₁, -⟩
  refine (proceeds_close hlimit .mapping hs₁).imp ?_
  rintro s' ⟨hs', hallowed⟩
  exact ⟨[.flowMappingEnd], _, by simp, fun handles => yields_entriesEnd true,
    .given ⟨.nil, .nil⟩, hs', hallowed⟩

theorem scansNode_sequence {items : List Node} (hlimit : ok → limit = total)
    (h : ScansItems strict ok total limit items t) :
    ScansNode strict ok total limit (.sequence items) ('[' :: t) := by
  intro b r ts depth s _ _ hs
  refine (proceeds_open hlimit .sequence hs).andThen (n := t.length)
    (Nat.le_of_eq (Nat.add_comm 1 _)) ?_
  rintro s₁ ⟨hs₁, -⟩
  refine (h hs₁).imp ?_
  rintro s' ⟨us, o, -, hyields, hgives, hs', hallowed⟩
  exact ⟨.flowSequence :: us, o.map .sequence, b, readsNode_sequence hyields,
    hgives.map fun ys hys => .sequence hys, .inl ⟨rfl, hallowed⟩, by simpa using hs'⟩

theorem scansNode_mapping {es : List (Node × Node)} (hlimit : ok → limit = total)
    (h : ScansEntries strict ok total limit es t) :
    ScansNode strict ok total limit (.mapping es) ('\x7b' :: t) := by
  intro b r ts depth s _ _ hs
  refine (proceeds_open hlimit .mapping hs).andThen (n := t.length)
    (Nat.le_of_eq (Nat.add_comm 1 _)) ?_
  rintro s₁ ⟨hs₁, hallowed₁⟩
  refine (h hs₁ hallowed₁).imp ?_
  rintro s' ⟨us, o, -, hyields, hgives, hs', hallowed⟩
  exact ⟨.flowMapping :: us, o.map .mapping, b, readsNode_mapping hyields,
    hgives.map fun fs hfs => .mapping hfs.1 hfs.2, .inl ⟨rfl, hallowed⟩, by simpa using hs'⟩

end Collections

mutual

/-- The scanner reads on over every tree that a text writes. -/
theorem scansNode (hlimit : ok → limit = total) (hstrict : ok → strict) :
    (n : Node) → (v : Text) → SpellsIn strict n v → ScansNode strict ok total limit n v
  | .atom _ _, _, h => scansNode_scalar hlimit hstrict h.1 h.2
  | .unreadable, _, h => scansNode_scalar hlimit hstrict h.1 h.2
  | .sequence items, _, h => by
    obtain ⟨r, rfl, ⟨rfl, a, ha, rfl⟩ | hitems⟩ := h
    · exact scansNode_sequence hlimit (scansItems_nil hlimit ha)
    · exact scansNode_sequence hlimit (scansItems hlimit hstrict items r hitems)
  | .mapping es, _, h => by
    obtain ⟨r, rfl, ⟨rfl, a, ha, rfl⟩ | hentries⟩ := h
    · exact scansNode_mapping hlimit (scansEntries_nil hlimit ha)
    · exact scansNode_mapping hlimit (scansEntries hlimit hstrict es r hentries)
  | .cast _ _ _ _, _, h => h.elim
  | .tagged _ _, _, h => h.elim
  | .reference _, _, h => h.elim
  | .broken, _, h => h.elim

theorem scansItems (hlimit : ok → limit = total) (hstrict : ok → strict) :
    (items : List Node) → (t : Text) → SpellsItemsIn strict items t →
      ScansItems strict ok total limit items t
  | [], _, h => h.elim
  | node :: items, _, h => by
    obtain ⟨a, v, b, r, rfl, ha, hb, hv, hr⟩ := h
    refine scansItems_cons hlimit (scansNode hlimit hstrict node v hv)
      (startsToken_of_spellsIn hv) ha hb ?_
    rcases hr with hlast | ⟨t, rfl, ht⟩
    · exact .inl hlast
    · exact .inr ⟨t, rfl, scansItems hlimit hstrict items t ht⟩

theorem scansEntries (hlimit : ok → limit = total) (hstrict : ok → strict) :
    (es : List (Node × Node)) → (t : Text) → SpellsEntriesIn strict es t →
      ScansEntries strict ok total limit es t
  | [], _, h => h.elim
  | (key, value) :: es, _, h => by
    obtain ⟨a, k, b, c, v, d, r, rfl, hblank, hkey, hclear, hv, hr⟩ := h
    refine scansEntries_cons hlimit hstrict hblank hkey hclear (scansNode hlimit hstrict value v hv)
      (startsToken_of_spellsIn hv) ?_
    rcases hr with hlast | ⟨t, rfl, ht⟩
    · exact .inl hlast
    · exact .inr ⟨t, rfl, scansEntries hlimit hstrict es t ht⟩

end

end RouteModule.Yaml
