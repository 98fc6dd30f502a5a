import Mathlib.Data.List.TakeWhile
import RouteModule.Text

/-!
Trimming a text at both ends. What is left has nothing to be trimmed at either end, and it is the only
such text that the whole consists of but for what is trimmed.
-/

namespace RouteModule.Text

variable {p : Char → Bool} {a b t : Text}

/-- There is nothing to be trimmed at either end of a text. -/
structure Bare (p : Char → Bool) (t : Text) : Prop where
  head : ∀ c ∈ t.head?, p c = false
  last : ∀ c ∈ t.getLast?, p c = false

theorem dropWhile_eq_self (h : ∀ c ∈ t.head?, p c = false) : t.dropWhile p = t := by
  cases t with
  | nil => rfl
  | cons c t => simp [h c rfl]

theorem dropEndWhile_eq_self (h : ∀ c ∈ t.getLast?, p c = false) : dropEndWhile p t = t := by
  have hhead : ∀ c ∈ t.reverse.head?, p c = false := by
    intro c hc
    rw [List.head?_reverse] at hc
    exact h c hc
  rw [dropEndWhile, dropWhile_eq_self hhead, List.reverse_reverse]

theorem dropEndWhile_append (hb : ∀ c ∈ b, p c = true) :
    dropEndWhile p (t ++ b) = dropEndWhile p t := by
  have hreverse : ∀ c ∈ b.reverse, p c = true := by
    intro c hc
    exact hb c (List.mem_reverse.1 hc)
  rw [dropEndWhile, List.reverse_append, List.dropWhile_append_of_pos hreverse, dropEndWhile]

/-- What is bare is left when all that stands around it is trimmed. -/
theorem trimBy_append (ha : ∀ c ∈ a, p c = true) (hb : ∀ c ∈ b, p c = true) (ht : Bare p t) :
    trimBy p (a ++ t ++ b) = t := by
  rw [trimBy, List.append_assoc, List.dropWhile_append_of_pos ha]
  cases t with
  | nil =>
    have hnil : b.dropWhile p = [] := List.dropWhile_eq_nil_iff.2 hb
    rw [List.nil_append, hnil]
    rfl
  | cons c t =>
    have hself : (c :: t ++ b).dropWhile p = c :: t ++ b := dropWhile_eq_self ht.head
    rw [hself, dropEndWhile_append hb, dropEndWhile_eq_self ht.last]

theorem dropEndWhile_append_takeWhile (p : Char → Bool) (t : Text) :
    dropEndWhile p t ++ (t.reverse.takeWhile p).reverse = t := by
  rw [dropEndWhile, ← List.reverse_append, List.takeWhile_append_dropWhile, List.reverse_reverse]

/-- A text is what trimming leaves of it, between characters that are trimmed. -/
theorem exists_append_trimBy (p : Char → Bool) (t : Text) :
    ∃ a b, (∀ c ∈ a, p c = true) ∧ (∀ c ∈ b, p c = true) ∧ t = a ++ trimBy p t ++ b := by
  refine ⟨t.takeWhile p, ((t.dropWhile p).reverse.takeWhile p).reverse, ?_, ?_, ?_⟩
  · intro c hc
    exact List.mem_takeWhile_imp hc
  · intro c hc
    exact List.mem_takeWhile_imp (List.mem_reverse.1 hc)
  · rw [trimBy, List.append_assoc, dropEndWhile_append_takeWhile, List.takeWhile_append_dropWhile]

/-- Trimming leaves nothing to be trimmed. -/
theorem bare_trimBy (p : Char → Bool) (t : Text) : Bare p (trimBy p t) := by
  have hstop : ∀ u : Text, ∀ c ∈ (u.dropWhile p).head?, p c = false := by
    intro u c hc
    have h := List.head?_dropWhile_not p u
    rw [Option.mem_def.1 hc] at h
    exact h
  constructor
  · intro c hc
    apply hstop t c
    rw [← dropEndWhile_append_takeWhile p (t.dropWhile p), List.head?_append]
    rw [trimBy, Option.mem_def] at hc
    rw [hc]
    rfl
  · intro c hc
    rw [trimBy, dropEndWhile, List.getLast?_reverse] at hc
    exact hstop _ c hc

/-- What is trimmed can stand around a text without changing what is left of it. -/
theorem trimBy_append_trimmed (ha : ∀ c ∈ a, p c = true) (hb : ∀ c ∈ b, p c = true) (t : Text) :
    trimBy p (a ++ t ++ b) = trimBy p t := by
  obtain ⟨a', b', ha', hb', ht⟩ := exists_append_trimBy p t
  have hbare := bare_trimBy p t
  generalize trimBy p t = u at ht hbare ⊢
  have hleft : ∀ c ∈ a ++ a', p c = true := by
    intro c hc
    exact (List.mem_append.1 hc).elim (ha c) (ha' c)
  have hright : ∀ c ∈ b' ++ b, p c = true := by
    intro c hc
    exact (List.mem_append.1 hc).elim (hb' c) (hb c)
  have hsplit : a ++ t ++ b = (a ++ a') ++ u ++ (b' ++ b) := by simp [ht]
  rw [hsplit, trimBy_append hleft hright hbare]

theorem trimBy_trimBy (p : Char → Bool) (t : Text) : trimBy p (trimBy p t) = trimBy p t := by
  have hself := trimBy_append (a := []) (b := []) (by simp) (by simp) (bare_trimBy p t)
  simpa using hself

theorem trimBy_eq_nil_iff : trimBy p t = [] ↔ ∀ c ∈ t, p c = true := by
  constructor
  · intro hnil
    obtain ⟨a, b, ha, hb, ht⟩ := exists_append_trimBy p t
    rw [hnil, List.append_nil] at ht
    rw [ht]
    intro c hc
    exact (List.mem_append.1 hc).elim (ha c) (hb c)
  · intro h
    have hall := trimBy_append_trimmed h (b := []) (by simp) []
    simpa [trimBy, dropEndWhile] using hall

end RouteModule.Text
