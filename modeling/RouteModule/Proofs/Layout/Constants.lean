import Mathlib.Data.List.Nodup
import RouteModule.Proofs.Layout.Content

/-!
The constants that describe arguments, all of them declared in one scope. Each is named after its
controller and its method with an underscore between the two. An underscore may stand in either name
as well, and then a constant does not tell which of its underscores is the one in between.
-/

namespace RouteModule

/-- What the names of a script are made of: a character that may stand first, and others behind it.
The letters of `args` may stand anywhere, and an underscore behind others. -/
structure NameRules where
  starts : Char → Bool
  goesOn : Char → Bool
  goesOn_of_starts : ∀ {c}, starts c = true → goesOn c = true
  starts_args : ∀ c ∈ "args".toList, starts c = true
  goesOn_underscore : goesOn '_' = true

/-- A text is a name by the rules. -/
def NameRules.IsIdentifier (r : NameRules) : Text → Prop
  | [] => False
  | c :: rest => r.starts c = true ∧ ∀ d ∈ rest, r.goesOn d = true

/-- The rules that know the letters of ASCII. -/
def NameRules.ascii : NameRules where
  starts c := c.isAlpha || c == '_' || c == '$'
  goesOn c := c.isAlphanum || c == '_' || c == '$'
  goesOn_of_starts := by
    intro c h
    simp only [Bool.or_eq_true] at h ⊢
    exact h.imp_left (Or.imp_left fun hc => by simp [Char.isAlphanum, hc])
  starts_args := List.all_eq_true.1 (by decide)
  goesOn_underscore := by decide

instance (r : NameRules) (t : Text) : Decidable (r.IsIdentifier t) :=
  match t with
  | [] => inferInstanceAs (Decidable False)
  | c :: rest =>
    decidable_of_iff (r.starts c = true ∧ rest.all r.goesOn) (and_congr_right' List.all_eq_true)

namespace NameRules

variable {r : NameRules} {s t : Text}

theorem IsIdentifier.goesOn (h : r.IsIdentifier t) : ∀ c ∈ t, r.goesOn c = true := by
  cases t with
  | nil => exact h.elim
  | cons c rest =>
    intro d hd
    rcases List.mem_cons.1 hd with rfl | hd
    · exact r.goesOn_of_starts h.1
    · exact h.2 d hd

/-- What may go on in a name can stand behind one. -/
theorem IsIdentifier.append (h : r.IsIdentifier s) (ht : ∀ c ∈ t, r.goesOn c = true) :
    r.IsIdentifier (s ++ t) := by
  cases s with
  | nil => exact h.elim
  | cons c rest =>
    refine ⟨h.1, fun d hd => ?_⟩
    rcases List.mem_append.1 hd with hd | hd
    · exact h.2 d hd
    · exact ht d hd

theorem isIdentifier_args (r : NameRules) : r.IsIdentifier "args".toList := by
  refine ⟨r.starts_args _ (by decide), fun d hd => r.goesOn_of_starts (r.starts_args d ?_)⟩
  exact List.mem_cons_of_mem _ hd

end NameRules

/-- The names of all methods, each behind that of its controller. -/
def Metadata.routeNames (m : Metadata) : List (Text × Text) :=
  m.controllers.flatMap fun c => c.methods.map fun d => (c.name, d.name)

namespace Layout

/-- The name of the constant for a method of a controller. -/
def constantName (e : Text × Text) : Text := "args".toList ++ (e.1 ++ '_' :: e.2)

/-- The first name goes on where the second controller's ends, and the second method's goes on in front
of the first's, by the same text behind an underscore. -/
def Shares (a b : Text × Text) : Prop := ∃ x, a.1 = b.1 ++ '_' :: x ∧ b.2 = x ++ '_' :: a.2

/-- Two constants have one name just if their methods and controllers do, or share a text in the
middle. -/
theorem constantName_eq_iff {a b : Text × Text} :
    constantName a = constantName b ↔ a = b ∨ Shares a b ∨ Shares b a := by
  obtain ⟨c, m⟩ := a
  obtain ⟨d, n⟩ := b
  simp only [constantName, List.append_cancel_left_eq, Shares]
  constructor
  · intro h
    obtain ⟨x, hd, hm⟩ | ⟨x, hc, hn⟩ := List.append_eq_append_iff.1 h
    · cases x with
      | nil =>
        simp only [List.nil_append, List.cons.injEq, true_and] at hm
        simp [hd, hm]
      | cons u x =>
        obtain ⟨rfl, rfl⟩ := List.cons.inj hm
        exact .inr (.inr ⟨x, hd, rfl⟩)
    · cases x with
      | nil =>
        simp only [List.nil_append, List.cons.injEq, true_and] at hn
        simp [hc, hn]
      | cons u x =>
        obtain ⟨rfl, rfl⟩ := List.cons.inj hn
        exact .inr (.inl ⟨x, hc, rfl⟩)
  · rintro (h | ⟨x, rfl, rfl⟩ | ⟨x, rfl, rfl⟩)
    · cases h
      rfl
    · simp
    · simp

theorem isIdentifier_constantName {r : NameRules} {e : Text × Text} (hc : r.IsIdentifier e.1)
    (hm : r.IsIdentifier e.2) : r.IsIdentifier (constantName e) := by
  apply r.isIdentifier_args.append
  intro c hmem
  rcases List.mem_append.1 hmem with hmem | hmem
  · exact hc.goesOn c hmem
  · rcases List.mem_cons.1 hmem with rfl | hmem
    · exact r.goesOn_underscore
    · exact hm.goesOn c hmem

/-- For methods that are told apart by their names and those of their controllers, the constants are
different just if no two of them share a text. -/
theorem nodup_constantNames_iff {names : List (Text × Text)} (h : names.Nodup) :
    (names.map constantName).Nodup ↔ ∀ a ∈ names, ∀ b ∈ names, ¬ Shares a b := by
  rw [List.nodup_map_iff_inj_on h]
  constructor
  · rintro hinj a ha b hb ⟨x, hx⟩
    have hab := hinj a ha b hb (constantName_eq_iff.2 (.inr (.inl ⟨x, hx⟩)))
    have hlength := congrArg List.length hx.1
    rw [hab, List.length_append, List.length_cons] at hlength
    omega
  · intro hnone a ha b hb hab
    rcases constantName_eq_iff.1 hab with hab | hab | hab
    · exact hab
    · exact absurd hab (hnone a ha b hb)
    · exact absurd hab (hnone b hb a ha)

/-- The declaration of a constant, up to the description of its arguments. -/
def constDeclaration (name : Text) : Text :=
  paragraph ["", "", "    const "] ++ name ++
    ": Record<string, TsoaRoute.ParameterSchema> = ".toList

theorem argumentsName_eq (controller name : Text) :
    argumentsName controller name = constDeclaration (constantName (controller, name)) := by
  have hconst : paragraph ["", "", "    const args"] =
      paragraph ["", "", "    const "] ++ "args".toList := by decide
  have hbar : "_".toList = ['_'] := by decide
  simp only [argumentsName, constDeclaration, constantName, hconst, hbar, List.append_assoc,
    List.singleton_append]

end Layout

namespace Generator

open Layout

/-- What the function that registers routes says about a method behind the declaration of its
constant. -/
def registered (g : Generator) (w : Wording) (c : Controller) (m : Method) : Text :=
  opening w (g.route c m) ++ authentication w (g.route c m) ++
    middlewares w c.name (g.route c m) ++
    handler w c.name (given g.options.iocModule) (g.route c m)

theorem methodBlock_eq (g : Generator) (w : Wording) (c : Controller) (m : Method) :
    g.methodBlock w c m = constDeclaration (constantName (c.name, m.name)) ++
      ((g.route c m).parametersJson.render ++ ";".toList ++ g.registered w c m) := by
  unfold methodBlock block argumentsConstant registered
  rw [argumentsName_eq]
  simp only [List.append_assoc]
  rfl

/-- The constants of all methods, each with what stands behind its declaration. -/
def constants (g : Generator) (w : Wording) : List (Text × Text) :=
  g.metadata.controllers.flatMap fun c => c.methods.map fun m =>
    (constantName (c.name, m.name),
      (g.route c m).parametersJson.render ++ ";".toList ++ g.registered w c m)

theorem names_constants (g : Generator) (w : Wording) :
    (g.constants w).map Prod.fst = g.metadata.routeNames.map constantName := by
  simp only [constants, Metadata.routeNames, List.map_flatMap, List.map_map]
  rfl

/-- Between its head and its end, the function that registers routes is the declarations of the
constants with what stands behind each. -/
theorem content_eq_constants (g : Generator) (cwd : Text) (f : Framework) :
    g.content cwd f.template = .ok (preamble f.wording (g.context cwd) ++
      ((g.constants f.wording).flatMap fun d => constDeclaration d.1 ++ d.2) ++
      ending f.wording (g.context cwd)) := by
  have hblock : ∀ c, g.methodBlock f.wording c = fun m =>
      constDeclaration (constantName (c.name, m.name)) ++
        ((g.route c m).parametersJson.render ++ ";".toList ++ g.registered f.wording c m) :=
    fun c => funext fun m => g.methodBlock_eq f.wording c m
  rw [content_eq_text, text, blocks_context]
  simp only [hblock, constants, List.flatMap_assoc, List.flatMap_map]

/-- The function that registers routes declares one constant for each method. Where the names of
controllers and methods are identifiers, so are those of the constants; where methods are told apart
by their names and those of their controllers, so are the constants just if no two of them share a
text. -/
theorem content_constants (r : NameRules) (g : Generator) (cwd : Text) (f : Framework)
    (hnames : ∀ e ∈ g.metadata.routeNames, r.IsIdentifier e.1 ∧ r.IsIdentifier e.2)
    (hpairs : g.metadata.routeNames.Nodup) :
    g.content cwd f.template = .ok (preamble f.wording (g.context cwd) ++
        ((g.constants f.wording).flatMap fun d => constDeclaration d.1 ++ d.2) ++
        ending f.wording (g.context cwd)) ∧
      (g.constants f.wording).map Prod.fst = g.metadata.routeNames.map constantName ∧
      (∀ d ∈ g.constants f.wording, r.IsIdentifier d.1) ∧
      (((g.constants f.wording).map Prod.fst).Nodup ↔
        ∀ a ∈ g.metadata.routeNames, ∀ b ∈ g.metadata.routeNames, ¬ Shares a b) := by
  have hconstants := g.names_constants f.wording
  refine ⟨g.content_eq_constants cwd f, hconstants, ?_, ?_⟩
  · intro d hd
    have hname := List.mem_map_of_mem (f := Prod.fst) hd
    rw [hconstants] at hname
    obtain ⟨e, he, hde⟩ := List.mem_map.1 hname
    rw [← hde]
    exact isIdentifier_constantName (hnames e he).1 (hnames e he).2
  · rw [hconstants]
    exact nodup_constantNames_iff hpairs

/-- A method without parameters at the root of its controller. -/
def plainMethod (name : String) : Method := ⟨name.toList, .get, [], [], none, []⟩

/-- The generator for two controllers with a method each. -/
def pairGenerator (c m d n : String) : Generator :=
  ⟨⟨[⟨c.toList, "src/c.ts".toList, "c".toList, [plainMethod m]⟩,
    ⟨d.toList, "src/d.ts".toList, "d".toList, [plainMethod n]⟩], []⟩, .ofRoutesDir "src".toList⟩

/-- Two controllers have a method of the same name, and the constants are different. -/
theorem content_constants_lists :
    let g := pairGenerator "Users" "list_all" "User_groups" "list_all"
    (∀ e ∈ g.metadata.routeNames,
      NameRules.ascii.IsIdentifier e.1 ∧ NameRules.ascii.IsIdentifier e.2) ∧
    g.metadata.routeNames.Nodup ∧ ((g.constants .express).map Prod.fst).Nodup := by
  intro g
  have hroutes : g.metadata.routeNames =
      [("Users".toList, "list_all".toList), ("User_groups".toList, "list_all".toList)] := rfl
  have hnames : ∀ e ∈ g.metadata.routeNames,
      NameRules.ascii.IsIdentifier e.1 ∧ NameRules.ascii.IsIdentifier e.2 := by
    rw [hroutes]
    decide
  have hpairs : g.metadata.routeNames.Nodup := by
    rw [hroutes]
    decide
  obtain ⟨-, -, -, hiff⟩ := content_constants .ascii g [] .express hnames hpairs
  refine ⟨hnames, hpairs, hiff.2 ?_⟩
  -- what they shared would lie in front of the method's own name in that very name
  rintro a ha b hb ⟨x, -, hx⟩
  have hname : ∀ e ∈ g.metadata.routeNames, e.2 = "list_all".toList := by
    rw [hroutes]
    decide
  rw [hname a ha, hname b hb] at hx
  have hlength := congrArg List.length hx
  rw [List.length_append, List.length_cons] at hlength
  omega

/-- Two methods that are told apart have one constant, and it is declared twice. -/
theorem joined_constants_repeated :
    let g := pairGenerator "A_B" "c" "A" "B_c"
    (∀ e ∈ g.metadata.routeNames,
      NameRules.ascii.IsIdentifier e.1 ∧ NameRules.ascii.IsIdentifier e.2) ∧
    g.metadata.routeNames.Nodup ∧
    ∃ between tail, g.content [] Framework.express.template = .ok (
      preamble .express (g.context []) ++ constDeclaration "argsA_B_c".toList ++ between ++
        constDeclaration "argsA_B_c".toList ++ tail) := by
  intro g
  have hroutes : g.metadata.routeNames =
      [("A_B".toList, "c".toList), ("A".toList, "B_c".toList)] := rfl
  have hnames : ∀ e ∈ g.metadata.routeNames,
      NameRules.ascii.IsIdentifier e.1 ∧ NameRules.ascii.IsIdentifier e.2 := by
    rw [hroutes]
    decide
  have hpairs : g.metadata.routeNames.Nodup := by
    rw [hroutes]
    decide
  have hfirst : constantName ("A_B".toList, "c".toList) = "argsA_B_c".toList := by decide
  have hsecond : constantName ("A".toList, "B_c".toList) = "argsA_B_c".toList := by decide
  have hconstants := g.names_constants .express
  rw [hroutes, List.map_cons, List.map_cons, List.map_nil, hfirst, hsecond] at hconstants
  obtain ⟨d, l, hd, hname, hl⟩ := List.map_eq_cons_iff.1 hconstants
  obtain ⟨e, l', he, hname', hl'⟩ := List.map_eq_cons_iff.1 hl
  rw [List.map_eq_nil_iff] at hl'
  refine ⟨hnames, hpairs, d.2, e.2 ++ ending .express (g.context []), ?_⟩
  rw [content_eq_constants]
  have hwording : Framework.express.wording = .express := rfl
  simp only [hwording, hd, he, hl', List.flatMap_cons, List.flatMap_nil, hname, hname',
    List.append_assoc, List.append_nil]

end Generator

end RouteModule
