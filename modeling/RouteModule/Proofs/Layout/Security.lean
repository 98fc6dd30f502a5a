import RouteModule.Options.Text
import RouteModule.Proofs.Layout.Content
import RouteModule.Proofs.Layout.Quiet

/-!
The security of a module. The routes of the methods that ask for authentication call the gate, each
once and with the requirements of its own method, and no other route does; the gate is there just if
some method asks for it, and is imported what it needs just if that is given.
-/

namespace RouteModule

/-- The methods that ask for authentication, in order. -/
def Metadata.securedMethods (m : Metadata) : List Method :=
  (m.controllers.flatMap (·.methods)).filter fun m => !m.security.isEmpty

namespace Layout

open Text (Quiet Fixed occurrences)

/-- The start of the function that the routes of a module are guarded by. -/
def declaration : Text := "function ".toList ++ gate

theorem gate_infix_declaration : gate <:+: declaration := (List.suffix_append _ gate).isInfix

/-- What is quiet about the gate is quiet about its start, if its end is apart from that as well. -/
theorem quiet_declaration {a b : Text} (h : Quiet gate (a ++ b)) (hb : Fixed declaration b) :
    Quiet declaration (a ++ b) := by
  refine ⟨fun hin => h.absent (gate_infix_declaration.trans hin), ?_⟩
  cases b with
  | nil =>
    obtain ⟨c, hc, -⟩ := hb.head
    simp at hc
  | cons c b =>
    rw [List.getLast?_append_of_ne_nil _ (List.cons_ne_nil c b)]
    exact hb.last

/-- What ends apart from the start of the gate ends apart from its name. -/
theorem last_gate {t : Text} (h : Quiet declaration t) : ∀ c ∈ t.getLast?, c ∉ gate := by
  intro c hc hg
  exact h.last c hc (gate_infix_declaration.subset hg)

section Routes

variable (f : Framework) {controller : Text} {contained : Bool} {a : Action}
  (hcontroller : ¬ gate <:+: controller) (ha : ∀ t ∈ actionTexts a, ¬ gate <:+: t)
  (hstatus : ¬ gate <:+: a.successStatus)

/-- The text in front of the call of the gate. -/
def beforeGate : Framework → Text
  | .express => paragraph ["", "        "]
  | .koa => paragraph ["", "        "]
  | .hapi => paragraph ["", "                \x7b method: "]

/-- The text behind the call of the gate. -/
def behindGate : Framework → Text
  | .express => ",".toList
  | .koa => ",".toList
  | .hapi => " \x7d,".toList

theorem beforeSecurity_eq : f.wording.beforeSecurity = beforeGate f ++ gate ++ "(".toList := by
  cases f with
  | express => decide
  | koa => decide
  | hapi => decide

theorem behindSecurity_eq : f.wording.behindSecurity = ")".toList ++ behindGate f := by
  cases f with
  | express => decide
  | koa => decide
  | hapi => decide

/-- The block of a route that asks for authentication calls the gate in front of the handler. -/
theorem block_secured (h : a.security ≠ []) :
    block f.wording controller contained a =
      (argumentsConstant controller a ++ opening f.wording a ++ beforeGate f) ++ gate ++
        "(".toList ++ a.securityJson.render ++ ")".toList ++
        (behindGate f ++ middlewares f.wording controller a) ++
        handler f.wording controller contained a := by
  rw [block, authentication, if_neg (by simpa using h), beforeSecurity_eq, behindSecurity_eq]
  simp only [List.append_assoc]

theorem block_unsecured (h : a.security = []) :
    block f.wording controller contained a =
      argumentsConstant controller a ++ opening f.wording a ++
        middlewares f.wording controller a ++ handler f.wording controller contained a := by
  rw [block, authentication, h, List.isEmpty_nil, if_pos rfl, List.append_nil]

include hcontroller ha hstatus in
/-- The block of a route calls the gate just if the route asks for authentication. -/
theorem occurrences_block :
    occurrences gate (block f.wording controller contained a) =
      if a.security.isEmpty then 0 else 1 := by
  have hstart := (quiet_argumentsConstant hcontroller ha).append (quiet_opening f ha)
  have hmiddlewares := quiet_middlewares f hcontroller ha
  have hhandler : Quiet gate (handler f.wording controller contained a) :=
    quiet_handler f hcontroller ha hstatus
  cases hs : a.security with
  | nil =>
    rw [block_unsecured f hs]
    exact Text.occurrences_eq_zero ((hstart.append hmiddlewares).append hhandler).absent
  | cons r rs =>
    rw [block_secured f (by simp [hs])]
    have hlead : Quiet gate (beforeGate f) := by cases f <;> decide
    have hopen : Quiet gate "(".toList := by decide
    have hclose : Fixed gate (")".toList ++ behindGate f) := by cases f <;> decide
    have hcall := hopen.around (ha a.securityJson.render (by simp [actionTexts])) hclose
    have hrest : Fixed gate ("(".toList ++ a.securityJson.render ++ (")".toList ++ behindGate f) ++
        middlewares f.wording controller a ++ handler f.wording controller contained a) :=
      ⟨(hcall.append hmiddlewares).append hhandler, '(', rfl, by decide⟩
    have hone := Text.occurrences_between gate_ne_nil (by decide) (hstart.append hlead) hrest
    simpa [List.append_assoc] using hone

set_option maxRecDepth 4000 in
include hcontroller ha hstatus in
/-- No route says how the gate starts. -/
theorem quiet_declaration_block :
    Quiet declaration (block f.wording controller contained a) := by
  have harguments : Quiet declaration (argumentsConstant controller a) :=
    quiet_declaration (quiet_argumentsConstant hcontroller ha) (by decide)
  have hopening : Quiet declaration (opening f.wording a) :=
    quiet_declaration (quiet_opening f ha) (by cases f <;> decide)
  have hmiddlewares : Quiet declaration (middlewares f.wording controller a) :=
    quiet_declaration (quiet_middlewares f hcontroller ha) (by decide)
  have hhandler : Quiet declaration (handler f.wording controller contained a) :=
    quiet_declaration (quiet_handler f hcontroller ha hstatus) (by cases f <;> decide)
  have hauthentication : Quiet declaration (authentication f.wording a) := by
    unfold authentication
    split
    · exact .nil (by decide)
    · have hsecurity := ha a.securityJson.render (by simp [actionTexts])
      exact .around (by cases f <;> decide)
        (fun hin => hsecurity (gate_infix_declaration.trans hin)) (by cases f <;> decide)
  exact (((harguments.append hopening).append hauthentication).append hmiddlewares).append hhandler

end Routes

section Ending

/-- The texts that stand behind the routes where some of them call the gate. -/
def endings (w : Wording) : List Text :=
  [w.attempt, missingModule].map fun t =>
    w.beforeAttempt ++ t ++ w.behindAttempt ++ paragraph ["", "\x7d", ""]

set_option maxRecDepth 100000 in
theorem all_endings (f : Framework) :
    (endings f.wording).all fun t =>
      occurrences gate t == 1 && occurrences declaration t == 1 := by
  unfold Framework.wording endings missingModule
  cases f
  all_goals
    dsimp only [Wording.express, Wording.koa, Wording.hapi]
    unfold declaration gate
    -- The literals are taken apart here, since the evaluation below is slow at it.
    simp (disch := exact rfl) only [paragraph_cons, paragraph_singleton, String.toList_append,
      toList_literal, -String.reduceToList, -String.reduceAppend]
    decide

variable (f : Framework) (c : RouteContext)

theorem ending_eq :
    ending f.wording c =
      if c.useSecurity then
        f.wording.beforeAttempt ++
          (if given c.authenticationModule then f.wording.attempt else missingModule) ++
          f.wording.behindAttempt ++ paragraph ["", "\x7d", ""]
      else paragraph ["", "\x7d", ""] := by
  unfold ending attempts
  split
  · rfl
  · rfl

/-- The gate is written once where some route calls it, whether or not there is a function to
authenticate requests with. -/
theorem occurrences_ending :
    occurrences gate (ending f.wording c) = (if c.useSecurity then 1 else 0) ∧
      occurrences declaration (ending f.wording c) = (if c.useSecurity then 1 else 0) := by
  rw [ending_eq]
  cases c.useSecurity with
  | false =>
    simp only [Bool.false_eq_true, if_false]
    exact ⟨by decide, by decide⟩
  | true =>
    simp only [if_true]
    have hall := all_endings f
    simp only [endings, List.all_map, List.all_cons, List.all_nil, Function.comp_apply,
      Bool.and_true, Bool.and_eq_true, beq_iff_eq] at hall
    split
    · exact hall.1
    · exact hall.2

end Ending

theorem quiet_declaration_preamble (f : Framework) {c : RouteContext}
    (h : ∀ t ∈ applicationTexts c, ¬ gate <:+: t) :
    Quiet declaration (preamble f.wording c) := by
  have hpreamble := quiet_preamble f h
  unfold preamble registration at hpreamble ⊢
  rw [← List.append_assoc] at hpreamble ⊢
  exact quiet_declaration hpreamble (by decide)

end Layout

namespace Generator

open Layout
open Text (Quiet occurrences)

variable (g : Generator) (cwd : Text) (f : Framework)

/-- What the context says about security is what the methods ask for. -/
theorem useSecurity_context :
    (g.context cwd).useSecurity = !g.metadata.securedMethods.isEmpty := by
  have hcontext : (g.context cwd).useSecurity =
      (g.metadata.controllers.flatMap (·.methods)).any fun m => !m.security.isEmpty := by
    simp only [context, RouteContext.ofMetadata, ControllerRoutes.ofController, List.any_map,
      List.any_flatMap, Function.comp_def]
    rfl
  rw [hcontext, Metadata.securedMethods]
  generalize g.metadata.controllers.flatMap (·.methods) = methods
  rw [Bool.eq_iff_iff]
  simp [List.filter_eq_nil_iff]

section Routes

variable {c : Controller} {m : Method}
  (h : ∀ t ∈ applicationTexts (g.context cwd), ¬ gate <:+: t)
  (hc : c ∈ g.metadata.controllers) (hm : m ∈ c.methods)

include h hc in
theorem absent_controllerName : ¬ gate <:+: c.name := by
  refine h c.name ?_
  simp only [applicationTexts, List.mem_append, List.mem_flatMap]
  exact .inl (.inl (.inl ⟨_, List.mem_map_of_mem hc, by simp [ControllerRoutes.ofController]⟩))

include h hc hm in
theorem absent_actionTexts : ∀ t ∈ actionTexts (g.route c m), ¬ gate <:+: t := by
  intro t ht
  refine h t ?_
  simp only [applicationTexts, List.mem_append, List.mem_flatMap]
  refine .inl (.inl (.inl ⟨_, List.mem_map_of_mem hc, ?_⟩))
  simp only [List.mem_cons, List.mem_flatMap]
  exact .inr (.inr ⟨_, List.mem_map_of_mem hm, ht⟩)

/-- A status is written in digits, or as the word for an absent value. -/
theorem absent_successStatus : ¬ gate <:+: (g.route c m).successStatus := by
  simp only [route, Action.ofMethod]
  cases m.successStatus with
  | none => decide
  | some status =>
    intro hin
    have hmem : 'M' ∈ Text.ofNat status := hin.subset (by decide)
    have hdigit := Nat.isDigit_of_mem_toDigits (by decide) (by decide) hmem
    exact absurd hdigit (by decide)

include h hc hm in
theorem occurrences_methodBlock :
    occurrences gate (g.methodBlock f.wording c m) = if m.security.isEmpty then 0 else 1 :=
  occurrences_block f (g.absent_controllerName cwd h hc) (g.absent_actionTexts cwd h hc hm)
    g.absent_successStatus

include h hc hm in
theorem quiet_declaration_methodBlock : Quiet declaration (g.methodBlock f.wording c m) :=
  quiet_declaration_block f (g.absent_controllerName cwd h hc) (g.absent_actionTexts cwd h hc hm)
    g.absent_successStatus

end Routes

section Blocks

variable (h : ∀ t ∈ applicationTexts (g.context cwd), ¬ gate <:+: t)

include h in
theorem quiet_declaration_blocks :
    Quiet declaration
      (g.metadata.controllers.flatMap fun c => c.methods.flatMap (g.methodBlock f.wording c)) := by
  refine .flatMap (by decide) fun c hc => ?_
  refine .flatMap (by decide) fun m hm => ?_
  exact g.quiet_declaration_methodBlock cwd f h hc hm

include h in
theorem occurrences_controllerBlocks {c : Controller} (hc : c ∈ g.metadata.controllers) :
    occurrences gate (c.methods.flatMap (g.methodBlock f.wording c)) =
      (c.methods.filter fun m => !m.security.isEmpty).length := by
  have hends : ∀ m ∈ c.methods, ∀ d ∈ (g.methodBlock f.wording c m).getLast?, d ∉ gate :=
    fun m hm => last_gate (g.quiet_declaration_methodBlock cwd f h hc hm)
  have hones : ∀ m ∈ c.methods, occurrences gate (g.methodBlock f.wording c m) =
      ([m].filter fun m => !m.security.isEmpty).length := by
    intro m hm
    rw [g.occurrences_methodBlock cwd f h hc hm, List.filter_singleton]
    cases m.security.isEmpty <;> rfl
  rw [Text.occurrences_flatMap gate_ne_nil hends hones, ← List.filter_flatMap, List.flatMap_singleton']

include h in
/-- The routes call the gate as often as methods ask for authentication. -/
theorem occurrences_blocks :
    occurrences gate
        (g.metadata.controllers.flatMap fun c => c.methods.flatMap (g.methodBlock f.wording c)) =
      g.metadata.securedMethods.length := by
  have hends : ∀ c ∈ g.metadata.controllers,
      ∀ d ∈ (c.methods.flatMap (g.methodBlock f.wording c)).getLast?, d ∉ gate :=
    fun c hc => last_gate <| .flatMap (by decide) fun m hm =>
      g.quiet_declaration_methodBlock cwd f h hc hm
  have hblocks := fun c (hc : c ∈ g.metadata.controllers) => g.occurrences_controllerBlocks cwd f h hc
  rw [Text.occurrences_flatMap gate_ne_nil hends hblocks, Metadata.securedMethods,
    List.filter_flatMap]

end Blocks

/-- The text of a module, with what it says for the sake of security in its places. -/
def guardedText : Text :=
  head f.wording ++
  (g.metadata.controllers.flatMap fun c =>
    importLine c.name
      (ImportPath.specifier cwd g.options.routesDir c.location g.options.esm)) ++
  (if !g.metadata.securedMethods.isEmpty && given g.options.authenticationModule then
    authenticationImport f.wording (g.options.authenticationModule.getD []) else []) ++
  (if given g.options.iocModule then containerImport (g.options.iocModule.getD []) else []) ++
  f.wording.types ++
  (if !g.metadata.securedMethods.isEmpty && given g.options.authenticationModule then
    f.wording.recast.getD [] else []) ++
  models f.wording (g.context cwd) ++
  registration f.wording ++
  (g.metadata.controllers.flatMap fun c => c.methods.flatMap (g.methodBlock f.wording c)) ++
  (if !g.metadata.securedMethods.isEmpty then
    f.wording.beforeAttempt ++
      (if given g.options.authenticationModule then f.wording.attempt else missingModule) ++
      f.wording.behindAttempt
  else []) ++
  paragraph ["", "\x7d", ""]

theorem content_eq_guardedText : g.content cwd f.template = .ok (g.guardedText cwd f) := by
  have hauthentication : (g.context cwd).authenticationModule = g.options.authenticationModule := rfl
  have hcontainer : (g.context cwd).iocModule = g.options.iocModule := rfl
  rw [content_eq_text, text, preamble, imports_context, blocks_context, settings, ending, attempts,
    useSecurity_context, hauthentication, hcontainer, guardedText]
  simp only [List.append_assoc]

theorem guardedText_eq :
    g.guardedText cwd f = preamble f.wording (g.context cwd) ++
      (g.metadata.controllers.flatMap fun c => c.methods.flatMap (g.methodBlock f.wording c)) ++
      ending f.wording (g.context cwd) := by
  have hcontent := g.content_eq_guardedText cwd f
  rw [content_eq_text, text, blocks_context] at hcontent
  exact (Except.ok.inj hcontent).symm

/-- The texts of a module that speak of the gate are those that call it, one for each method that
asks for authentication, and the gate itself if there is such a method. -/
theorem occurrences_guardedText (h : ∀ t ∈ applicationTexts (g.context cwd), ¬ gate <:+: t) :
    occurrences gate (g.guardedText cwd f) =
        g.metadata.securedMethods.length + (if g.metadata.securedMethods.isEmpty then 0 else 1) ∧
      occurrences declaration (g.guardedText cwd f) =
        if g.metadata.securedMethods.isEmpty then 0 else 1 := by
  have hpreamble := quiet_declaration_preamble f h
  have hblocks := g.quiet_declaration_blocks cwd f h
  have hending := occurrences_ending f (g.context cwd)
  have hsecured : (if (g.context cwd).useSecurity then 1 else 0) =
      if g.metadata.securedMethods.isEmpty then 0 else 1 := by
    rw [useSecurity_context]
    cases g.metadata.securedMethods.isEmpty <;> rfl
  rw [hsecured] at hending
  have hne : declaration ≠ [] := by decide
  rw [guardedText_eq]
  constructor
  · have hboth := last_gate (hpreamble.append hblocks)
    rw [Text.occurrences_append gate_ne_nil (.inl hboth),
      Text.occurrences_append gate_ne_nil (.inl (last_gate hpreamble)),
      Text.occurrences_eq_zero (quiet_preamble f h).absent, g.occurrences_blocks cwd f h, hending.1,
      Nat.zero_add]
  · have hboth := hpreamble.append hblocks
    rw [Text.occurrences_append hne (.inl hboth.last), Text.occurrences_eq_zero hboth.absent,
      hending.2, Nat.zero_add]

/-- What a wording says for the sake of security: it declares the gate, tries the function that
authenticates requests, and otherwise turns a request down. -/
theorem wording_security :
    declaration <:+: f.wording.beforeAttempt ∧
      f.wording.authentication <+: f.wording.attempt ∧
      "Promise.reject(new Error(".toList <+: missingModule := by
  cases f with
  | express => decide
  | koa => decide
  | hapi => decide

/-- Where no text of an application speaks of the gate, the route of a method that asks for
authentication calls it once, with the security of the method and in front of the handler, and other
routes do not call it; the gate is declared once if there is such a method, and is not spoken of
otherwise; it tries the function that authenticates requests, which is imported for it, just if a
module for that is given, and turns the request down otherwise. -/
theorem content_guarded (h : ∀ t ∈ applicationTexts (g.context cwd), ¬ gate <:+: t) :
    g.content cwd f.template = .ok (g.guardedText cwd f) ∧
      (∀ c ∈ g.metadata.controllers, ∀ m ∈ c.methods,
        (m.security = [] → occurrences gate (g.methodBlock f.wording c m) = 0) ∧
        (m.security ≠ [] →
          occurrences gate (g.methodBlock f.wording c m) = 1 ∧
          ∃ before between, g.methodBlock f.wording c m =
            before ++ gate ++ "(".toList ++
              (Json.array (m.security.map Requirement.toJson)).render ++ ")".toList ++ between ++
              handler f.wording c.name (given g.options.iocModule) (g.route c m))) ∧
      occurrences gate (g.guardedText cwd f) =
        g.metadata.securedMethods.length + (if g.metadata.securedMethods.isEmpty then 0 else 1) ∧
      occurrences declaration (g.guardedText cwd f) =
        (if g.metadata.securedMethods.isEmpty then 0 else 1) ∧
      declaration <:+: f.wording.beforeAttempt ∧
      f.wording.authentication <+: f.wording.attempt ∧
      "Promise.reject(new Error(".toList <+: missingModule := by
  obtain ⟨hgate, hdeclaration⟩ := g.occurrences_guardedText cwd f h
  refine ⟨g.content_eq_guardedText cwd f, ?_, hgate, hdeclaration, wording_security f⟩
  intro c hc m hm
  have hblock := g.occurrences_methodBlock cwd f h hc hm
  constructor
  · intro hnone
    rw [hblock, hnone, List.isEmpty_nil, if_pos rfl]
  · intro hsome
    rw [hblock, if_neg (by simpa using hsome)]
    exact ⟨rfl, _, _, block_secured f hsome⟩

/-- A controller with a method that asks for authentication and one that does not. -/
def accounts : Controller :=
  ⟨"Accounts".toList, "src/accounts.ts".toList, "accounts".toList, [
    ⟨"list".toList, .get, [], [], none, []⟩,
    ⟨"close".toList, .delete, "\x7bid\x7d".toList, [], some 204,
      [[("jwt".toList, ["admin".toList])]]⟩]⟩

/-- The generator for that controller, with a module for authentication. -/
def accountsGenerator : Generator :=
  ⟨⟨[accounts], []⟩,
    { Options.ofRoutesDir "src".toList with authenticationModule := some "./auth".toList }⟩

theorem content_guarded_accounts :
    (∀ t ∈ applicationTexts (accountsGenerator.context []), ¬ gate <:+: t) ∧
      accountsGenerator.content [] Framework.koa.template =
        .ok (accountsGenerator.guardedText [] .koa) ∧
      occurrences gate (accountsGenerator.guardedText [] .koa) = 2 ∧
      occurrences declaration (accountsGenerator.guardedText [] .koa) = 1 := by
  have hquiet : ∀ t ∈ applicationTexts (accountsGenerator.context []), ¬ gate <:+: t := by
    decide +kernel
  obtain ⟨hcontent, -, hgate, hdeclaration, -⟩ :=
    content_guarded accountsGenerator [] .koa hquiet
  exact ⟨hquiet, hcontent, hgate, hdeclaration⟩

/-- The path of each route stands in the module. -/
theorem fullPath_infix_guardedText {c : Controller} {m : Method} (hc : c ∈ g.metadata.controllers)
    (hm : m ∈ c.methods) : (g.route c m).fullPath <:+: g.guardedText cwd f := by
  have hopening : (g.route c m).fullPath <:+: opening f.wording (g.route c m) :=
    List.infix_append _ _ _
  have hblock : opening f.wording (g.route c m) <:+: g.methodBlock f.wording c m := by
    unfold methodBlock block
    simp only [List.append_assoc]
    exact List.infix_append' _ _ _
  have hcontroller : g.methodBlock f.wording c m <:+:
      c.methods.flatMap (g.methodBlock f.wording c) :=
    List.infix_of_mem_flatten (List.mem_map_of_mem hm)
  have hblocks : c.methods.flatMap (g.methodBlock f.wording c) <:+:
      g.metadata.controllers.flatMap fun c => c.methods.flatMap (g.methodBlock f.wording c) :=
    List.infix_of_mem_flatten (List.mem_map_of_mem hc)
  have htext : (g.metadata.controllers.flatMap fun c =>
      c.methods.flatMap (g.methodBlock f.wording c)) <:+: g.guardedText cwd f := by
    rw [guardedText_eq]
    exact List.infix_append _ _ _
  exact hopening.trans (hblock.trans (hcontroller.trans (hblocks.trans htext)))

/-- A method whose path speaks of the gate only once it is rewritten. -/
def openSession : Method :=
  ⟨"open".toList, .get, "\x7bauthenticate\x7dMiddleware".toList, [], none, []⟩

/-- The controller of that method. -/
def sessions : Controller := ⟨"Sessions".toList, "src/sessions.ts".toList, [], [openSession]⟩

/-- The generator for that controller. -/
def sessionsGenerator : Generator := ⟨⟨[sessions], []⟩, .ofRoutesDir "src".toList⟩

/-- Neither the metadata nor the options speak of the gate, and no method asks for authentication;
yet the module speaks of the gate. -/
theorem sessions_gate :
    ¬ gate <:+: sessionsGenerator.metadata.toJson.render ∧
      ¬ gate <:+: sessionsGenerator.options.toJson.render ∧
      sessionsGenerator.metadata.securedMethods = [] ∧
      ∃ content, sessionsGenerator.content [] Framework.express.template = .ok content ∧
        gate <:+: content := by
  refine ⟨by decide +kernel, by decide +kernel, rfl, _,
    content_eq_guardedText sessionsGenerator [] .express, ?_⟩
  have hpath : gate <:+: (sessionsGenerator.route sessions openSession).fullPath := by
    decide +kernel
  exact hpath.trans <|
    fullPath_infix_guardedText sessionsGenerator [] .express List.mem_cons_self List.mem_cons_self

end Generator

end RouteModule
