import RouteModule.Proofs.Layout.Content
import RouteModule.Proofs.Table

/-!
The arguments of a handler as its module describes them: under their names, each once, but in the
order of the names. What is called with the arguments in that order gets them as its method declares
them just if the declared names ascend.
-/

namespace RouteModule

namespace Method

/-- The names of a method's arguments, in the order in which it declares them. -/
def argumentNames (m : Method) : List Text := m.parameters.map (·.parameterName)

/-- A method's arguments under their names, in the order in which it declares them. -/
def arguments (m : Method) : List (Text × ActionParameter) :=
  m.parameters.map fun p => (p.parameterName, .ofParameter p)

@[simp] theorem names_arguments (m : Method) : m.arguments.map Prod.fst = m.argumentNames := by
  simp [arguments, argumentNames]

end Method

namespace Action

variable (style : PathStyle) (basePath controllerPath : Text) (m : Method)

@[simp] theorem parameters_ofMethod :
    (ofMethod style basePath controllerPath m).parameters = Table.ofList m.arguments := rfl

@[simp] theorem names_argumentMembers (a : Action) :
    a.argumentMembers.map Prod.fst = a.parameters.map Prod.fst := by
  simp [argumentMembers]

/-- Where the arguments have different names, each is described once. -/
theorem argumentMembers_perm (h : m.argumentNames.Nodup) :
    (ofMethod style basePath controllerPath m).argumentMembers.Perm
      (m.arguments.map fun e => (e.1, e.2.toJson)) := by
  rw [argumentMembers, parameters_ofMethod]
  apply List.Perm.map
  apply Table.ofList_perm
  rwa [Method.names_arguments]

/-- The descriptions ascend by the names of the arguments. -/
theorem argumentMembers_sorted :
    ((ofMethod style basePath controllerPath m).argumentMembers.map Prod.fst).Pairwise
      fun a b => Text.before a b := by
  rw [names_argumentMembers, parameters_ofMethod]
  exact Table.names_ofList _

/-- The descriptions are in the declared order just if the declared names ascend. -/
theorem argumentMembers_eq_iff (h : m.argumentNames.Nodup) :
    (ofMethod style basePath controllerPath m).argumentMembers.map Prod.fst = m.argumentNames ↔
      m.argumentNames.Pairwise fun a b => Text.before a b := by
  rw [← Method.names_arguments] at h ⊢
  rw [names_argumentMembers, parameters_ofMethod]
  exact Table.names_ofList_eq_iff h

end Action

namespace Generator

open Layout

/-- Behind the blocks of all methods before it, the module describes the arguments of a method. -/
theorem content_argumentMembers (g : Generator) (cwd : Text) (f : Framework)
    {cs ds : List Controller} {c : Controller} {ms ns : List Method} {m : Method}
    (hc : g.metadata.controllers = cs ++ c :: ds) (hm : c.methods = ms ++ m :: ns) :
    ∃ tail, g.content cwd f.template = .ok (
      preamble f.wording (g.context cwd) ++
      (cs.flatMap fun c => c.methods.flatMap (g.methodBlock f.wording c)) ++
      ms.flatMap (g.methodBlock f.wording c) ++
      argumentsName c.name m.name ++ (Json.object (g.route c m).argumentMembers).render ++
      ";".toList ++ tail) := by
  obtain ⟨rest, hblock⟩ : ∃ rest, g.methodBlock f.wording c m =
      argumentsName c.name m.name ++ (g.route c m).parametersJson.render ++ ";".toList ++ rest := by
    unfold methodBlock block argumentsConstant
    simp only [List.append_assoc]
    exact ⟨_, rfl⟩
  obtain ⟨tail, hcontent⟩ := g.content_methodBlock cwd f hc hm
  refine ⟨rest ++ tail, ?_⟩
  rw [hcontent, hblock]
  simp only [List.append_assoc, Action.parametersJson]

/-- In the module each argument of a method is described once, in the order of the names. This is
the declared order just if the declared names ascend. -/
theorem content_arguments (g : Generator) (cwd : Text) (f : Framework) {cs ds : List Controller}
    {c : Controller} {ms ns : List Method} {m : Method}
    (hc : g.metadata.controllers = cs ++ c :: ds) (hm : c.methods = ms ++ m :: ns)
    (hnames : m.argumentNames.Nodup) :
    ∃ members tail,
      g.content cwd f.template = .ok (
        preamble f.wording (g.context cwd) ++
        (cs.flatMap fun c => c.methods.flatMap (g.methodBlock f.wording c)) ++
        ms.flatMap (g.methodBlock f.wording c) ++
        argumentsName c.name m.name ++ (Json.object members).render ++ ";".toList ++ tail) ∧
      members.Perm (m.arguments.map fun e => (e.1, e.2.toJson)) ∧
      ((members.map Prod.fst).Pairwise fun a b => Text.before a b) ∧
      (members.map Prod.fst = m.argumentNames ↔
        m.argumentNames.Pairwise fun a b => Text.before a b) := by
  obtain ⟨tail, hcontent⟩ := g.content_argumentMembers cwd f hc hm
  refine ⟨(g.route c m).argumentMembers, tail, hcontent, ?_, ?_, ?_⟩
  · exact Action.argumentMembers_perm _ _ _ _ hnames
  · exact Action.argumentMembers_sorted _ _ _ _
  · exact Action.argumentMembers_eq_iff _ _ _ _ hnames

/-- A method that declares its arguments against the order of their names. -/
def findUser : Method where
  name := "find".toList
  verb := .get
  path := "\x7bid\x7d".toList
  parameters := [
    ⟨"id".toList, "id".toList, .path, true, ⟨"string".toList, none, none, none⟩⟩,
    ⟨"filter".toList, "filter".toList, .query, false, ⟨"string".toList, none, none, none⟩⟩]
  successStatus := none
  security := []

/-- The only controller with such a method. -/
def users : Controller :=
  ⟨"UsersController".toList, "src/users.ts".toList, "users".toList, [findUser]⟩

/-- The generator for that controller. -/
def usersGenerator : Generator := ⟨⟨[users], []⟩, .ofRoutesDir "src".toList⟩

theorem content_arguments_users :
    findUser.argumentNames.Nodup ∧
    ∃ members tail,
      usersGenerator.content [] Framework.koa.template = .ok (
        preamble .koa (usersGenerator.context []) ++ argumentsName users.name findUser.name ++
          (Json.object members).render ++ ";".toList ++ tail) ∧
      members.Perm (findUser.arguments.map fun e => (e.1, e.2.toJson)) ∧
      ((members.map Prod.fst).Pairwise fun a b => Text.before a b) ∧
      (members.map Prod.fst = findUser.argumentNames ↔
        findUser.argumentNames.Pairwise fun a b => Text.before a b) := by
  have hnames : findUser.argumentNames.Nodup := by decide
  obtain ⟨members, tail, hcontent, hrest⟩ :=
    @content_arguments usersGenerator [] .koa [] [] users [] [] findUser rfl rfl hnames
  refine ⟨hnames, members, tail, ?_, hrest⟩
  rw [hcontent]
  simp only [List.flatMap_nil, List.append_nil]
  rfl

/-- The module describes these arguments in the other order. -/
theorem users_arguments_exchanged :
    findUser.argumentNames.Nodup ∧ findUser.argumentNames = ["id".toList, "filter".toList] ∧
    ∃ members tail,
      usersGenerator.content [] Framework.express.template = .ok (
        preamble .express (usersGenerator.context []) ++ argumentsName users.name findUser.name ++
          (Json.object members).render ++ ";".toList ++ tail) ∧
      members.map Prod.fst = ["filter".toList, "id".toList] := by
  obtain ⟨tail, hcontent⟩ :=
    @content_argumentMembers usersGenerator [] .express [] [] users [] [] findUser rfl rfl
  refine ⟨by decide, rfl, (usersGenerator.route users findUser).argumentMembers, tail, ?_, ?_⟩
  · rw [hcontent]
    simp only [List.flatMap_nil, List.append_nil]
    rfl
  · decide

end Generator

end RouteModule
