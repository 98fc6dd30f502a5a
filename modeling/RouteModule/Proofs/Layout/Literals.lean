import Mathlib.Data.Bool.AllAny
import RouteModule.Proofs.Layout.Content
import RouteModule.Proofs.Script.Literal

/-!
The string literals of a module, and what scripts make of them. A module writes each value as it is
between two quotes, so the literal denotes the value just if no character of it ends the literal or
starts an escape.
-/

namespace RouteModule

namespace Generator

open Layout

/-- The module that a controller is imported from. -/
def modulePath (g : Generator) (cwd : Text) (c : Controller) : Text :=
  ImportPath.specifier cwd g.options.routesDir c.location g.options.esm

/-- All that stands in front of the block of a method: the blocks of the controllers before its own,
and of the methods before it. -/
def beforeBlock (g : Generator) (cwd : Text) (w : Wording) (cs : List Controller) (c : Controller)
    (ms : List Method) : Text :=
  preamble w (g.context cwd) ++ (cs.flatMap fun c => c.methods.flatMap (g.methodBlock w c)) ++
    ms.flatMap (g.methodBlock w c)

/-- A module writes a value into a literal, behind a front and between two quotes: the path of a
module that it imports, the full path of a route, the name of its method, or the name of a type. -/
inductive Writes (g : Generator) (cwd : Text) (w : Wording) : Text → Char → Text → Prop where
  | modulePath {cs ds : List Controller} {c : Controller}
    (hc : g.metadata.controllers = cs ++ c :: ds) :
    Writes g cwd w
      (head w ++ (cs.flatMap fun c => importLine c.name (g.modulePath cwd c)) ++
        "import \x7b ".toList ++ c.name ++ " \x7d from ".toList)
      '\'' (g.modulePath cwd c)
  | fullPath {cs ds : List Controller} {c : Controller} {ms ns : List Method} {m : Method}
    (hc : g.metadata.controllers = cs ++ c :: ds) (hm : c.methods = ms ++ m :: ns) :
    Writes g cwd w
      (g.beforeBlock cwd w cs c ms ++ argumentsConstant c.name (g.route c m) ++ w.beforeVerb ++
        m.verb.name.toList ++ w.beforePath.dropLast)
      '\'' (g.route c m).fullPath
  | methodName {cs ds : List Controller} {c : Controller} {ms ns : List Method} {m : Method}
    (hc : g.metadata.controllers = cs ++ c :: ds) (hm : c.methods = ms ++ m :: ns) :
    Writes g cwd w
      (g.beforeBlock cwd w cs c ms ++ argumentsConstant c.name (g.route c m) ++
        opening w (g.route c m) ++ authentication w (g.route c m) ++
        middlewares w c.name (g.route c m) ++ w.beforeHandler ++ c.name ++ "_".toList ++ m.name ++
        w.signature ++ c.name ++ "_".toList ++ m.name ++ w.behindArguments ++
        controllerInstance w c.name (given g.options.iocModule) ++ w.beforeName.dropLast)
      '\'' m.name
  | typeName {ts us : Table ReferenceType} {name : Text} {r : ReferenceType}
    (ht : g.metadata.referenceTypes = ts ++ (name, r) :: us) :
    Writes g cwd w
      (head w ++ (g.metadata.controllers.flatMap fun c => importLine c.name (g.modulePath cwd c)) ++
        settings w (g.context cwd) ++ paragraph ["", "const models: TsoaRoute.Models = \x7b"] ++
        (ts.flatMap fun e => modelEntry g.options.noImplicitAdditionalProperties e.1 e.2) ++
        paragraph ["", "    "])
      '"' name

/-- The quotes around the path of a route and around the name of its method. -/
theorem quotes_wording (f : Framework) :
    f.wording.beforePath = f.wording.beforePath.dropLast ++ ['\''] ∧
    (∃ rest, f.wording.behindPath = '\'' :: rest) ∧
    f.wording.beforeName = f.wording.beforeName.dropLast ++ ['\''] ∧
    ∃ rest, f.wording.beforeStatus = '\'' :: rest := by
  cases f with
  | express => exact ⟨by decide, ⟨_, rfl⟩, by decide +kernel, ⟨_, rfl⟩⟩
  | koa => exact ⟨by decide, ⟨_, rfl⟩, by decide +kernel, ⟨_, rfl⟩⟩
  | hapi => exact ⟨by decide, ⟨_, rfl⟩, by decide +kernel, ⟨_, rfl⟩⟩

/-- The quotes around the path of a module that is imported. -/
theorem importLine_quoted (name path : Text) :
    ∃ close, importLine name path = "import \x7b ".toList ++ name ++ " \x7d from ".toList ++
      '\'' :: (path ++ '\'' :: close) := by
  have hopen : " \x7d from '".toList = " \x7d from ".toList ++ ['\''] := by decide
  obtain ⟨close, hclose⟩ : ∃ close, paragraph ["';", ""] = '\'' :: close :=
    ⟨";\n".toList, by decide⟩
  refine ⟨close, ?_⟩
  unfold importLine
  rw [hopen, hclose]
  simp only [List.append_assoc, List.cons_append, List.nil_append]

/-- The full path of a route stands between quotes in the block of its method. -/
theorem methodBlock_fullPath (g : Generator) (f : Framework) (c : Controller) (m : Method) :
    ∃ rest, g.methodBlock f.wording c m =
      argumentsConstant c.name (g.route c m) ++ f.wording.beforeVerb ++ m.verb.name.toList ++
        f.wording.beforePath.dropLast ++ '\'' :: ((g.route c m).fullPath ++ '\'' :: rest) := by
  obtain ⟨hpath, ⟨behind, hbehind⟩, -, -⟩ := quotes_wording f
  obtain ⟨rest, hrest⟩ : ∃ rest, g.methodBlock f.wording c m =
      argumentsConstant c.name (g.route c m) ++ f.wording.beforeVerb ++ m.verb.name.toList ++
        f.wording.beforePath ++ (g.route c m).fullPath ++ f.wording.behindPath ++ rest := by
    unfold methodBlock block opening
    simp only [List.append_assoc]
    exact ⟨_, rfl⟩
  rw [hpath, hbehind] at hrest
  refine ⟨behind ++ rest, ?_⟩
  rw [hrest]
  simp only [List.append_assoc, List.cons_append, List.nil_append]

/-- The name of a method stands between quotes in its block. -/
theorem methodBlock_name (g : Generator) (f : Framework) (c : Controller) (m : Method) :
    ∃ rest, g.methodBlock f.wording c m =
      argumentsConstant c.name (g.route c m) ++ opening f.wording (g.route c m) ++
        authentication f.wording (g.route c m) ++ middlewares f.wording c.name (g.route c m) ++
        f.wording.beforeHandler ++ c.name ++ "_".toList ++ m.name ++ f.wording.signature ++
        c.name ++ "_".toList ++ m.name ++ f.wording.behindArguments ++
        controllerInstance f.wording c.name (given g.options.iocModule) ++
        f.wording.beforeName.dropLast ++ '\'' :: (m.name ++ '\'' :: rest) := by
  obtain ⟨-, -, hname, ⟨behind, hbehind⟩⟩ := quotes_wording f
  obtain ⟨rest, hrest⟩ : ∃ rest, g.methodBlock f.wording c m =
      argumentsConstant c.name (g.route c m) ++ opening f.wording (g.route c m) ++
        authentication f.wording (g.route c m) ++ middlewares f.wording c.name (g.route c m) ++
        f.wording.beforeHandler ++ c.name ++ "_".toList ++ m.name ++ f.wording.signature ++
        c.name ++ "_".toList ++ m.name ++ f.wording.behindArguments ++
        controllerInstance f.wording c.name (given g.options.iocModule) ++
        f.wording.beforeName ++ m.name ++ f.wording.beforeStatus ++ rest := by
    unfold methodBlock block handler
    simp only [List.append_assoc]
    exact ⟨_, rfl⟩
  rw [hname, hbehind] at hrest
  refine ⟨behind ++ rest, ?_⟩
  rw [hrest]
  simp only [List.append_assoc, List.cons_append, List.nil_append]

/-- The name of a type stands between quotes in its entry. -/
theorem modelEntry_name (policy : Policy) (name : Text) (r : ReferenceType) :
    ∃ rest, modelEntry policy name r =
      paragraph ["", "    "] ++ '"' :: (name ++ '"' :: rest) := by
  have hopen : paragraph ["", "    \""] = paragraph ["", "    "] ++ ['"'] := by decide
  obtain ⟨close, hclose⟩ : ∃ close,
      paragraph ["\": \x7b", "        \"dataType\": \""] = '"' :: close := ⟨_, rfl⟩
  obtain ⟨rest, hrest⟩ : ∃ rest, modelEntry policy name r =
      paragraph ["", "    \""] ++ name ++ paragraph ["\": \x7b", "        \"dataType\": \""] ++
        rest := by
    unfold modelEntry
    simp only [List.append_assoc]
    exact ⟨_, rfl⟩
  rw [hopen, hclose] at hrest
  refine ⟨close ++ rest, ?_⟩
  rw [hrest]
  simp only [List.append_assoc, List.cons_append, List.nil_append]

section Places

variable {g : Generator} {cwd : Text} {f : Framework} {front value : Text} {quote : Char}

/-- The module has the value between its quotes, and the front in front of them. -/
theorem content_of_writes (h : g.Writes cwd f.wording front quote value) :
    ∃ tail, g.content cwd f.template = .ok (front ++ quote :: (value ++ quote :: tail)) := by
  cases h with
  | @modulePath cs ds c hc =>
    obtain ⟨close, hline⟩ := importLine_quoted c.name (g.modulePath cwd c)
    rw [content_eq_text, text, preamble, imports_context, hc]
    simp only [modulePath] at hline ⊢
    simp only [List.flatMap_append, List.flatMap_cons, hline, List.append_assoc, List.cons_append]
    exact ⟨_, rfl⟩
  | @fullPath cs ds c ms ns m hc hm =>
    obtain ⟨tail, hcontent⟩ := g.content_methodBlock cwd f hc hm
    obtain ⟨rest, hblock⟩ := g.methodBlock_fullPath f c m
    refine ⟨rest ++ tail, ?_⟩
    rw [hcontent, hblock]
    simp only [beforeBlock, List.append_assoc, List.cons_append]
  | @methodName cs ds c ms ns m hc hm =>
    obtain ⟨tail, hcontent⟩ := g.content_methodBlock cwd f hc hm
    obtain ⟨rest, hblock⟩ := g.methodBlock_name f c m
    refine ⟨rest ++ tail, ?_⟩
    rw [hcontent, hblock]
    simp only [beforeBlock, List.append_assoc, List.cons_append]
  | @typeName ts us name r ht =>
    obtain ⟨rest, hentry⟩ := modelEntry_name g.options.noImplicitAdditionalProperties value r
    have hmodels : (g.context cwd).models = ts ++ (value, r) :: us := ht
    have hpolicy : (g.context cwd).noImplicitAdditionalProperties =
        g.options.noImplicitAdditionalProperties := rfl
    rw [content_eq_text, text, preamble, imports_context, models, hmodels, hpolicy]
    simp only [List.flatMap_append, List.flatMap_cons, hentry, modulePath, List.append_assoc,
      List.cons_append]
    exact ⟨_, rfl⟩

/-- In a module of a framework every such value stands between its quotes. What scripts read there
ends at the closing quote and denotes the value just if all of its characters stand for themselves. -/
theorem content_literals (h : g.Writes cwd f.wording front quote value) :
    ∃ tail, g.content cwd f.template = .ok (front ++ quote :: (value ++ quote :: tail)) ∧
      (Script.readLiteral? quote (value ++ quote :: tail) = some (Script.units value, tail) ↔
        ∀ c ∈ value, Script.Plain quote c) := by
  obtain ⟨tail, hcontent⟩ := content_of_writes h
  exact ⟨tail, hcontent, Script.readLiteral?_eq_iff⟩

end Places

/-- A method under a path with an apostrophe. -/
def readClock : Method := ⟨"read".toList, .get, "o'clock".toList, [], none, []⟩

/-- The controller of that method. -/
def clock : Controller := ⟨"Clock".toList, "src/clock.ts".toList, [], [readClock]⟩

/-- The generator for that controller. -/
def clockGenerator : Generator := ⟨⟨[clock], []⟩, .ofRoutesDir "src".toList⟩

/-- The literal for the name of the method denotes it. -/
theorem content_literals_clock :
    ∃ front, clockGenerator.Writes [] .express front '\'' readClock.name ∧
      ∃ tail, clockGenerator.content [] Framework.express.template =
          .ok (front ++ '\'' :: (readClock.name ++ '\'' :: tail)) ∧
        Script.readLiteral? '\'' (readClock.name ++ '\'' :: tail) =
          some (Script.units readClock.name, tail) := by
  have hwrites := @Writes.methodName clockGenerator [] .express [] [] clock [] [] readClock rfl rfl
  obtain ⟨tail, hcontent, hread⟩ := @content_literals clockGenerator [] .express _ _ _ hwrites
  have hplain : ∀ c ∈ readClock.name, Script.Plain '\'' c :=
    List.all_iff_forall_prop.1 (by decide)
  exact ⟨_, hwrites, tail, hcontent, hread.2 hplain⟩

/-- The literal for the path ends at the apostrophe, and what follows is no literal. -/
theorem clock_fullPath_cut :
    (clockGenerator.route clock readClock).fullPath = "/o'clock".toList ∧
    ∃ front, clockGenerator.Writes [] .express front '\'' "/o'clock".toList ∧
      ∃ tail, clockGenerator.content [] Framework.express.template =
          .ok (front ++ '\'' :: ("/o'clock".toList ++ '\'' :: tail)) ∧
        Script.readLiteral? '\'' ("/o'clock".toList ++ '\'' :: tail) =
          some (Script.units "/o".toList, "clock".toList ++ '\'' :: tail) := by
  have hpath : (clockGenerator.route clock readClock).fullPath = "/o'clock".toList := by
    decide +kernel
  have hwrites := @Writes.fullPath clockGenerator [] .express [] [] clock [] [] readClock rfl rfl
  rw [hpath] at hwrites
  obtain ⟨tail, hcontent⟩ := @content_of_writes clockGenerator [] .express _ _ _ hwrites
  have hplain : ∀ c ∈ "/o".toList, Script.Plain '\'' c := List.all_iff_forall_prop.1 (by decide)
  exact ⟨hpath, _, hwrites, tail, hcontent, Script.readLiteral?_plain hplain _⟩

end Generator

end RouteModule
