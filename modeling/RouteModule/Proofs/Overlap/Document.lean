import RouteModule.Proofs.Overlap.Leftover
import RouteModule.Proofs.Overlap.Scan

/-!
What YAML makes of a whole JSON text. It reads a tree alike, or else it sees no whole document, which
takes a character that YAML does not allow or something else that it does not read as JSON does.
-/

namespace RouteModule.Yaml

variable {strict ok : Prop} {n : Node} {t : Text} {ts : List Token}

/-- A document is a tree alike, or else it is not whole, which `ok` excludes. -/
inductive ReadsDocument (strict ok : Prop) (n : Node) : Document → Prop where
  | tree {y : Node} {jumps : Nat} (h : Alike strict n y) :
    ReadsDocument strict ok n ⟨y, true, #[], jumps⟩
  | broken {document : Document} (hok : ¬ ok) (h : document.complete = false) :
    ReadsDocument strict ok n document

theorem readRoot_startsNode {d : Token} (hd : StartsNode d) (ts : List Token) :
    readRoot (d :: ts) =
      readNode defaultHandles true false (4 * (d :: ts).length + 8) ⟨d :: ts, [], []⟩ := by
  cases hd <;> rfl

/-- The tokens of a tree and the end of the stream are the document with that tree. -/
theorem readRoot_comes {o : Option Node} (h : ReadsNode ts o) :
    Comes [.streamEnd] (readRoot (ts ++ [.streamEnd])) o := by
  obtain ⟨d, us, rfl, hd⟩ := h.start
  rw [List.cons_append, readRoot_startsNode hd, ← List.cons_append]
  exact h.yields _ _ _ _ (by rw [List.length_append]; omega)

/-- The scanner reads on over a document to the end of the text. -/
theorem proceeds_document {limit : Nat} (h : SpellsDocumentIn strict n t) (hstrict : ok → strict)
    (hlimit : ok → limit = Text.byteLength t) :
    Proceeds limit ok t.length (Scanner.start t) fun s => ∃ us o, ReadsNode us o ∧
      Gives ok (Alike strict n) o ∧ Stands (Text.byteLength t) [] us.reverse 1 s := by
  obtain ⟨a, v, b, rfl, ha, hb, hv, htabs⟩ := h
  have hnothing : StartsToken [] := by simp [StartsToken]
  refine (proceeds_blank_outside ha (startsToken_of_spellsIn hv b) (stands_start _)
    fun h => (htabs (hstrict h)).1).andThen (n := v.length)
    (by simp only [List.length_append]; omega) ?_
  intro s₁ hs₁
  have hs₁' : Stands (Text.byteLength (a ++ (v ++ b))) (v ++ (b ++ [])) [] 1 s₁ := by
    rwa [List.append_nil]
  refine (scansNode hlimit hstrict n v hv hb (by simp [EndsBare]) hs₁').bind (n := 0) ?_
  rintro s₂ ⟨us, o, b', hreads, hgives, hb', hs₂⟩
  rw [List.append_nil, List.append_nil] at hs₂
  rcases hb' with ⟨rfl, hallowed⟩ | rfl
  · refine (proceeds_blank_outside hb hnothing (by rwa [List.append_nil]) fun h => ?_).imp
      fun s hs => ⟨us, o, hreads, hgives, hs⟩
    rw [TabsFit, hallowed]
    exact (htabs (hstrict h)).2
  · refine (proceeds_blank_outside Json.blank_nil hnothing hs₂ fun h => ?_).imp
      fun s hs => ⟨us, o, hreads, hgives, hs⟩
    rw [TabsFit]
    split <;> simp

/-- The tokens of a text are those of a tree with the end of the stream behind them, or there is no
end of the stream. -/
theorem tokens_of_spells (h : SpellsDocumentIn strict n t)
    (hok : ok → strict ∧ ∀ d ∈ t, isAllowed d = true) :
    (∃ us o, ReadsNode us o ∧ Gives ok (Alike strict n) o ∧ tokens t = us ++ [.streamEnd]) ∨
      ¬ ok ∧ .streamEnd ∉ tokens t := by
  have hlimit : ok → readable 0 0 t = Text.byteLength t := fun h => by
    rw [readable_of_allowed 0 0 (hok h).2, Nat.zero_add]
  cases proceeds_document h (fun h => (hok h).1) hlimit with
  | off hok hnever => exact .inr ⟨hok, hnever _⟩
  | @on j s hj hrun hshort hs =>
    obtain ⟨us, o, hreads, hgives, hs⟩ := hs
    obtain ⟨fuel, hfuel⟩ : ∃ fuel, t.length + 2 = fuel + 1 + 1 + j := ⟨t.length - j, by omega⟩
    have hsame := hrun (fuel + 1)
    rw [← hfuel] at hsame
    rcases run_end_outside hs with hend | ⟨hother, hnever⟩
    · rw [hend, List.reverse_reverse] at hsame
      rcases hsame with heq | ⟨-, hmem⟩
      · exact .inl ⟨us, o, hreads, hgives, heq⟩
      · exact absurd (by simp) hmem
    · exact .inr ⟨fun h => hother (hlimit h), hsame.not_mem (hnever _)⟩

theorem complete_document (t : Text) :
    (document t).complete = isOver (readRoot (tokens t)).2.tokens := by
  unfold document
  generalize readRoot (tokens t) = r
  rfl

/-- A JSON text is read by the rules of YAML as a tree alike, or else not as a whole document. -/
theorem readsDocument (h : SpellsDocumentIn strict n t) :
    ReadsDocument strict (strict ∧ ∀ d ∈ t, isAllowed d = true) n (document t) := by
  rcases tokens_of_spells h id with ⟨us, o, hreads, hgives, htokens⟩ | ⟨hok, hnever⟩
  · have hroot := readRoot_comes hreads
    cases hgives with
    | given hy =>
      have heq : readRoot (us ++ [.streamEnd]) = (_, ⟨[.streamEnd], [], []⟩) := hroot
      have hover : isOver [.streamEnd] = true := rfl
      have htable : Source.table ⟨[.streamEnd], [], []⟩ = #[] := rfl
      rw [document, htokens, heq]
      dsimp only
      rw [hover, htable]
      exact .tree hy
    | broken hok =>
      have hstop : (readRoot (us ++ [.streamEnd])).2 = ⟨[], [], []⟩ := hroot
      refine .broken hok ?_
      rw [complete_document, htokens, hstop]
      rfl
  · refine .broken hok ?_
    rw [complete_document]
    exact isOver_readRoot hnever

end RouteModule.Yaml
