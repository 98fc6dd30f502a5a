import RouteModule.Proofs.Template.Lookup
import RouteModule.Template.Output

/-!
The text that the parts of a template give, said part by part. A loop gives the texts of its rounds
one behind the other; where the text of a round depends on its value alone, the loop goes through
the values in their order, and no round changes the text of another.
-/

namespace RouteModule.Template

/-- Parts give a text in a scope, and leave the scope as it is. -/
def Prints (policy : Policy) (s : Scope) (nodes : List Node) (t : Text) : Prop :=
  outputs policy nodes s = some (t, s)

/-- What parts give behind a text. -/
def behind (t : Text) (r : Option (Text × Scope)) : Option (Text × Scope) :=
  r.map fun r => (t ++ r.1, r.2)

@[simp] theorem behind_some (t u : Text) (s : Scope) :
    behind t (some (u, s)) = some (t ++ u, s) := rfl

variable {policy : Policy} {s : Scope}

@[simp] theorem outputs_nil : outputs policy [] s = some ([], s) := by
  simp only [outputs]

theorem Prints.singleton {node : Node} {t : Text} (h : node.output policy s = some (t, s)) :
    Prints policy s [node] t := by
  rw [Prints, outputs, h]
  simp

theorem Prints.output {node : Node} {t : Text} (h : Prints policy s [node] t) :
    node.output policy s = some (t, s) := by
  rw [Prints, outputs] at h
  cases hnode : node.output policy s with
  | none => simp [hnode] at h
  | some r =>
    obtain ⟨u, s'⟩ := r
    simpa [hnode] using h

/-- What a part gives stands in front of what the parts behind it give. -/
theorem outputs_cons {node : Node} {t : Text} (h : Prints policy s [node] t) (rest : List Node) :
    outputs policy (node :: rest) s = behind t (outputs policy rest s) := by
  rw [outputs, h.output]
  simp only [Option.bind_eq_bind, Option.bind_some]
  cases outputs policy rest s with
  | none => rfl
  | some r => rfl

/-- What parts give stands in front of what the parts behind them give, if they leave the scope as
it is. -/
theorem outputs_append {nodes : List Node} {t : Text} (h : Prints policy s nodes t)
    (rest : List Node) :
    outputs policy (nodes ++ rest) s = behind t (outputs policy rest s) := by
  have hseq : ∀ (nodes : List Node) (s : Scope), outputs policy (nodes ++ rest) s =
      (outputs policy nodes s).bind fun r => behind r.1 (outputs policy rest r.2) := by
    intro nodes
    induction nodes with
    | nil =>
      intro s
      cases hrest : outputs policy rest s with
      | none => simp [behind, hrest]
      | some r => simp [behind, hrest]
    | cons node nodes ih =>
      intro s
      rw [List.cons_append, outputs, outputs]
      cases hnode : node.output policy s with
      | none => rfl
      | some r =>
        obtain ⟨t, s'⟩ := r
        simp only [Option.bind_eq_bind, Option.bind_some, ih s']
        cases outputs policy nodes s' with
        | none => rfl
        | some r' =>
          obtain ⟨u, s''⟩ := r'
          cases hrest : outputs policy rest s'' with
          | none => simp [behind, hrest]
          | some q => simp [behind, hrest]
  rw [hseq, h, Option.bind_some]

theorem Prints.append {nodes rest : List Node} {t u : Text} (h : Prints policy s nodes t)
    (hrest : Prints policy s rest u) : Prints policy s (nodes ++ rest) (t ++ u) := by
  rw [Prints] at hrest
  rw [Prints, outputs_append h, hrest, behind_some]

@[simp] theorem outputs_text (t : Text) (rest : List Node) :
    outputs policy (.text t :: rest) s = behind t (outputs policy rest s) :=
  outputs_cons (.singleton (by simp only [Node.output])) rest

@[simp] theorem printed_text (t : Text) : printed (.text t) = t := rfl

@[simp] theorem printed_literal (l : String) : printed (.literal l) = l.toList := rfl

theorem outputs_print {e : Expr} {v : Json} (h : e.value? policy s = some v) (rest : List Node) :
    outputs policy (.print e :: rest) s = behind (printed v) (outputs policy rest s) := by
  refine outputs_cons (.singleton ?_) rest
  rw [Node.output, h]
  rfl

/-- A condition gives what its branch gives. -/
theorem Prints.cond {test : Expr} {b : Bool} {t : Text} {body otherwise : List Node}
    (htest : test.truth? policy s = some b)
    (hbranch : Prints policy s (if b then body else otherwise) t) :
    Prints policy s [.cond test body otherwise] t := by
  refine .singleton ?_
  rw [Node.output, htest]
  cases b with
  | true => exact hbranch
  | false => exact hbranch

/-- The texts of rounds in one, where each round gives the text of its item. -/
theorem eachRound_map {render : Nat → Text × Json → Option Text} {item : α → Text × Json}
    {f : α → Text} {xs : List α} (h : ∀ i, ∀ x ∈ xs, render i (item x) = some (f x)) (i : Nat) :
    eachRound render i (xs.map item) = some (xs.flatMap f) := by
  induction xs generalizing i with
  | nil => rfl
  | cons x xs ih =>
    have hx := h i x List.mem_cons_self
    have hxs := ih (fun j y hy => h j y (List.mem_cons_of_mem x hy)) (i + 1)
    simp only [List.map_cons, eachRound, hx, hxs, List.flatMap_cons]
    rfl

/-- A loop gives the texts of its items in their order, if each round gives the text of its item
whatever its number is. -/
theorem Prints.loop {keyName : Option Text} {valueName : Text} {source : Expr} {body : List Node}
    {v : Json} {f : α → Text} {xs : List α} (item : α → Text × Json) (hsource : source.isSource)
    (hvalue : source.value? policy s = some v)
    (hrounds : roundsOf? keyName.isSome v = some (xs.map item))
    (hbody : ∀ i n, ∀ x ∈ xs,
      Prints policy (s.enter ⟨keyName, valueName, (item x).1, (item x).2, i, n⟩) body (f x)) :
    Prints policy s [.loop keyName valueName source body []] (xs.flatMap f) := by
  refine .singleton ?_
  rw [Node.output, hvalue]
  simp only [hsource, hrounds, Bool.not_true, Option.bind_eq_bind, Option.bind_some]
  by_cases hempty : (xs.map item).isEmpty
  · have hnil : xs = [] := by simpa using hempty
    subst hnil
    simp only [List.map_nil, List.isEmpty_nil, if_true, outputs_nil, List.flatMap_nil]
    rfl
  · rw [if_neg hempty, eachRound_map (f := f)]
    · rfl
    · intro i x hx
      have hround := hbody i (xs.map item).length x hx
      rw [Prints] at hround
      rw [hround]
      rfl

/-- What the parts of a template give with the values of a context is what the template gives. -/
theorem render_of_prints {template t : Text} {nodes : List Node} {members : List (Text × Json)}
    (hread : Node.ofText? template = some nodes)
    (h : Prints policy (Scope.ofContext members) nodes t) :
    render policy template (.object members) = .ok t := by
  rw [Prints] at h
  simp only [render, hread, h]

end RouteModule.Template
