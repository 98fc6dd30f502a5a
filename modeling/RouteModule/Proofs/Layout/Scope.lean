import Mathlib.Data.Option.Basic
import RouteModule.Proofs.Layout.Tree
import RouteModule.Proofs.Template.Lookup

/-!
What the variables of the tree mean: outside of all loops they are members of the context, and in
the rounds of the loops there are a controller, a route or a named type besides. Nothing that a
round adds hides what it does not name.
-/

namespace RouteModule.Layout

open Template

variable {policy : Policy} {s : Scope}

section Expressions

theorem value?_named {name : String} (h : IsName name.toList) :
    (named name).value? policy s = s.find? name.toList :=
  s.lookup?_name h

theorem value?_member {root key : String} (hr : IsName root.toList) (hk : IsName key.toList) :
    (member root key).value? policy s = s.find? (root.toList ++ '.' :: key.toList) :=
  s.lookup?_member hr hk

/-- As a condition a variable holds if its value is full. -/
theorem truth?_named (name : String) :
    (named name).truth? policy s = some (((named name).value? policy s).any isFull) := rfl

theorem value?_asJson {path : Text} {v : Json} (h : (Expr.variable path).value? policy s = some v) :
    (asJson (.variable path)).value? policy s = some (.text v.render) := by
  have hname : "json".toList ≠ defaultName := by decide
  have hv : ((Expr.variable path).meaning policy s).value = some v := h
  simp only [asJson, Expr.value?, Expr.meaning, Expr.core, hname, if_false, argumentValues] at hv ⊢
  simp only [hv, Option.bind_eq_bind, Option.bind_some, applyFilter, if_true]

theorem value?_asJson_named {name : String} {v : Json}
    (h : (named name).value? policy s = some v) :
    (asJson (named name)).value? policy s = some (.text v.render) :=
  value?_asJson h

theorem value?_asJson_member {root key : String} {v : Json}
    (h : (member root key).value? policy s = some v) :
    (asJson (member root key)).value? policy s = some (.text v.render) :=
  value?_asJson h

/-- A list is longer than nothing unless it is empty. -/
theorem truth?_isSecured {items : List Json}
    (h : (member "action" "security").value? policy s = some (.array items)) :
    isSecured.truth? policy s = some (!items.isEmpty) := by
  have hname : "length".toList ≠ defaultName := by decide
  have hjson : "length".toList ≠ "json".toList := by decide
  have hv : ((member "action" "security").meaning policy s).value = some (.array items) := h
  have hlength : (Expr.meaning policy s
      (.filter (member "action" "security") "length".toList [])).number =
        some (some (.integer items.length)) := by
    simp only [member] at hv
    simp only [member, Expr.meaning, Expr.core, hname, if_false, argumentValues] at hv ⊢
    simp only [hv, Option.bind_eq_bind, Option.bind_some, applyFilter, hjson, if_false, if_true,
      length?, Json.natural, number?]
  have hzero : ((Expr.number (.integer 0)).meaning policy s).number = some (some (.integer 0)) := by
    simp only [Expr.meaning, Meaning.ofNumber]
  simp only [isSecured, Expr.truth?, Expr.meaning, Meaning.ofTruth, Comparison.apply]
  simp only [Expr.meaning] at hlength hzero
  rw [hlength, hzero]
  cases items with
  | nil =>
    simp [Comparison.ofNumbers, Number.toReal]
  | cons v items =>
    have hpos := Binary64.rank_ofInt_pos (i := ((v :: items).length : Nat)) (by simp)
    simpa [Comparison.ofNumbers, Number.toReal] using hpos

theorem kindName_inj (k l : ReferenceType.Kind) : k.name = l.name ↔ k = l := by
  cases k <;> cases l <;> decide

/-- The kinds of named types are told apart by their names. -/
theorem truth?_isKind (kind : ReferenceType.Kind) {k : ReferenceType.Kind}
    (h : (member "model" "dataType").value? policy s = some (.literal k.name)) :
    (isKind kind).truth? policy s = some (decide (k = kind)) := by
  have hv : ((member "model" "dataType").meaning policy s).value = some (.literal k.name) := h
  simp only [isKind, Expr.truth?, Expr.meaning, Meaning.ofTruth, Comparison.apply] at hv ⊢
  rw [hv]
  simp only [Option.bind_eq_bind, Option.bind_some, Option.pure_def, Json.literal,
    Comparison.ofValues, areMixed, same, Option.some.injEq]
  rw [Bool.eq_iff_iff]
  simp [String.toList_inj, kindName_inj]

/-- What a model says about further properties is put into words under the policy. -/
theorem value?_additionalProps {v : Json}
    (h : (member "model" "additionalProperties").value? policy s = some v) :
    (Expr.call "additional_props".toList
      [("schema".toList, member "model" "additionalProperties")]).value? policy s =
      some (.text (additionalProps policy v)) := by
  have hv : ((member "model" "additionalProperties").meaning policy s).value = some v := h
  simp only [Expr.value?, Expr.meaning, Meaning.ofCall, argumentValues, hv, Option.bind_eq_bind,
    Option.bind_some, Option.pure_def, function?, if_true, List.lookup_cons_self, Option.getD_some]

end Expressions

section Rounds

variable {r : Round} {root key name : String}

/-- A round hides no variable but the two that it names. -/
theorem value?_named_enter (h : IsName name.toList) (hloop : name.toList ≠ "loop".toList)
    (hkey : r.keyName ≠ some name.toList) (hvalue : name.toList ≠ r.valueName) :
    (named name).value? policy (s.enter r) = (named name).value? policy s := by
  rw [value?_named h, value?_named h]
  apply s.find?_enter_other
  rw [r.find?_name h hloop, if_neg hkey, if_neg hvalue]

/-- A round hides no member of a variable but of the one that it names. -/
theorem value?_member_enter (hr : IsName root.toList) (hk : IsName key.toList)
    (hloop : root.toList ≠ "loop".toList) (hkey : ∀ k ∈ r.keyName, IsName k)
    (hvalue : root.toList ≠ r.valueName) :
    (member root key).value? policy (s.enter r) = (member root key).value? policy s := by
  rw [value?_member hr hk, value?_member hr hk]
  apply s.find?_enter_other
  rw [r.find?_member hr hloop (Round.keyName_ne_member hkey _ _), if_neg hvalue]

/-- In a round the members of its variable are those of the value of the round. -/
theorem value?_member_round {v : Json} (hr : IsName root.toList) (hk : IsName key.toList)
    (hloop : root.toList ≠ "loop".toList) (hkey : ∀ k ∈ r.keyName, IsName k)
    (hvalue : root.toList = r.valueName) (hpart : Path.part? key.toList r.value = some v) :
    (member root key).value? policy (s.enter r) = some v := by
  rw [value?_member hr hk]
  apply s.find?_enter_of_some
  rw [r.find?_member hr hloop (Round.keyName_ne_member hkey _ _), if_pos hvalue,
    Path.into_name hk, hpart]

/-- In a round the name of the key stands for the key. -/
theorem value?_named_key (h : IsName name.toList) (hloop : name.toList ≠ "loop".toList)
    (hkey : r.keyName = some name.toList) :
    (named name).value? policy (s.enter r) = some (.text r.key) := by
  rw [value?_named h]
  apply s.find?_enter_of_some
  rw [r.find?_name h hloop, if_pos hkey]

end Rounds

section Context

/-- The scope of a context outside of all loops. -/
def contextScope (c : RouteContext) : Scope :=
  .ofContext (Table.ofList (c.members.map fun m => (m.1.toList, m.2)))

/-- What a scope knows about an application. -/
structure Knows (policy : Policy) (s : Scope) (c : RouteContext) : Prop where
  controllers : (named "controllers").value? policy s =
    some (.array (c.controllers.map ControllerRoutes.toJson))
  models : (named "models").value? policy s = some (ReferenceType.tableToJson c.models)
  minimalSwaggerConfig :
    (named "minimalSwaggerConfig").value? policy s = some c.minimalSwaggerConfig
  useSecurity : (named "useSecurity").value? policy s = some (.bool c.useSecurity)
  authenticationModule : (named "authenticationModule").value? policy s =
    some (Options.optionalToJson c.authenticationModule)
  iocModule : (named "iocModule").value? policy s = some (Options.optionalToJson c.iocModule)

theorem value?_contextScope (c : RouteContext) {name : String} (h : IsName name.toList) :
    (named name).value? policy (contextScope c) = c.members.reverse.lookup name := by
  rw [value?_named h, contextScope, Scope.find?_ofContext, entry, Path.split_name h,
    ← Path.part?_record]
  exact Option.bind_fun_some _

theorem knows_contextScope (policy : Policy) (c : RouteContext) :
    Knows policy (contextScope c) c where
  controllers := value?_contextScope c (isName_ofList (by decide))
  models := value?_contextScope c (isName_ofList (by decide))
  minimalSwaggerConfig := value?_contextScope c (isName_ofList (by decide))
  useSecurity := value?_contextScope c (isName_ofList (by decide))
  authenticationModule := value?_contextScope c (isName_ofList (by decide))
  iocModule := value?_contextScope c (isName_ofList (by decide))

/-- An optional text is full if it is given. -/
theorem isFull_optionalToJson (t : Option Text) : isFull (Options.optionalToJson t) = given t := by
  cases t with
  | none => rfl
  | some t => rfl

namespace Knows

variable {c : RouteContext}

theorem truth?_useSecurity (h : Knows policy s c) :
    (named "useSecurity").truth? policy s = some c.useSecurity := by
  rw [truth?_named, h.useSecurity]
  rfl

theorem truth?_authenticationModule (h : Knows policy s c) :
    (named "authenticationModule").truth? policy s = some (given c.authenticationModule) := by
  rw [truth?_named, h.authenticationModule, Option.any_some, isFull_optionalToJson]

theorem truth?_iocModule (h : Knows policy s c) :
    (named "iocModule").truth? policy s = some (given c.iocModule) := by
  rw [truth?_named, h.iocModule, Option.any_some, isFull_optionalToJson]

theorem truth?_authenticates (h : Knows policy s c) :
    authenticates.truth? policy s = some (c.useSecurity && given c.authenticationModule) := by
  have huse := h.truth?_useSecurity
  have hmodule := h.truth?_authenticationModule
  simp only [authenticates, Expr.truth?, Expr.meaning, Meaning.ofTruth] at huse hmodule ⊢
  rw [huse, hmodule]
  cases c.useSecurity with
  | true => rfl
  | false => rfl

end Knows

end Context

/-- What a scope knows about a route of a controller. -/
structure KnowsRoute (policy : Policy) (s : Scope) (controller : Text) (contained : Bool)
    (a : Action) : Prop where
  controller : (member "controller" "name").value? policy s = some (.text controller)
  name : (member "action" "name").value? policy s = some (.text a.name)
  parameters : (member "action" "parameters").value? policy s = some a.parametersJson
  verb : (member "action" "method").value? policy s = some (.literal a.verb.name)
  fullPath : (member "action" "fullPath").value? policy s = some (.text a.fullPath)
  security : (member "action" "security").value? policy s = some a.securityJson
  successStatus :
    (member "action" "successStatus").value? policy s = some (.text a.successStatus)
  contained : (named "iocModule").truth? policy s = some contained

section Routes

/-- The round of a controller. -/
def controllerRound (k : ControllerRoutes) (i n : Nat) : Round :=
  ⟨none, "controller".toList, [], k.toJson, i, n⟩

/-- The round of a route. -/
def actionRound (a : Action) (i n : Nat) : Round := ⟨none, "action".toList, [], a.toJson, i, n⟩

/-- In the round of a controller its members are known. -/
theorem value?_controller (policy : Policy) (s : Scope) (k : ControllerRoutes) (i n : Nat)
    {key : String} {v : Json} (hk : IsName key.toList)
    (hpart : Path.part? key.toList k.toJson = some v) :
    (member "controller" key).value? policy (s.enter (controllerRound k i n)) = some v :=
  value?_member_round (isName_ofList (by decide)) hk (by decide) (by simp [controllerRound]) rfl
    hpart

/-- In the round of a route its members are known. -/
theorem value?_action (policy : Policy) (s : Scope) (a : Action) (i n : Nat) {key : String}
    {v : Json} (hk : IsName key.toList) (hpart : Path.part? key.toList a.toJson = some v) :
    (member "action" key).value? policy (s.enter (actionRound a i n)) = some v :=
  value?_member_round (isName_ofList (by decide)) hk (by decide) (by simp [actionRound]) rfl hpart

/-- In the rounds of a controller and one of its routes, both are known. -/
theorem Knows.route {c : RouteContext} (h : Knows policy s c) (k : ControllerRoutes) (a : Action)
    (i n j m : Nat) :
    KnowsRoute policy ((s.enter (controllerRound k i n)).enter (actionRound a j m)) k.name
      (given c.iocModule) a where
  controller := by
    rw [value?_member_enter (isName_ofList (by decide)) (isName_ofList (by decide)) (by decide)
      (by simp [actionRound]) (by simp [actionRound])]
    exact value?_controller policy s k i n (isName_ofList (by decide)) (Path.part?_record _ _)
  name := value?_action policy _ a j m (isName_ofList (by decide)) (Path.part?_record _ _)
  parameters := value?_action policy _ a j m (isName_ofList (by decide)) (Path.part?_record _ _)
  verb := value?_action policy _ a j m (isName_ofList (by decide)) (Path.part?_record _ _)
  fullPath := value?_action policy _ a j m (isName_ofList (by decide)) (Path.part?_record _ _)
  security := value?_action policy _ a j m (isName_ofList (by decide)) (Path.part?_record _ _)
  successStatus := value?_action policy _ a j m (isName_ofList (by decide)) (Path.part?_record _ _)
  contained := by
    rw [truth?_named,
      value?_named_enter (isName_ofList (by decide)) (by decide) (by simp [actionRound])
        (by simp [actionRound]),
      value?_named_enter (isName_ofList (by decide)) (by decide) (by simp [controllerRound])
        (by simp [controllerRound]),
      h.iocModule, Option.any_some, isFull_optionalToJson]

end Routes

section Models

/-- The round of a named type. -/
def modelRound (name : Text) (r : ReferenceType) (i n : Nat) : Round :=
  ⟨some "name".toList, "model".toList, name, r.toJson, i, n⟩

/-- In the round of a named type its name is known. -/
theorem value?_modelName (policy : Policy) (s : Scope) (name : Text) (r : ReferenceType)
    (i n : Nat) :
    (named "name").value? policy (s.enter (modelRound name r i n)) = some (.text name) :=
  value?_named_key (isName_ofList (by decide)) (by decide) rfl

/-- In the round of a named type its members are known. -/
theorem value?_model (policy : Policy) (s : Scope) (name : Text) (r : ReferenceType) (i n : Nat)
    (key : String) {v : Json} (hk : IsName key.toList)
    (hpart : Path.part? key.toList r.toJson = some v) :
    (member "model" key).value? policy (s.enter (modelRound name r i n)) = some v := by
  refine value?_member_round (isName_ofList (by decide)) hk (by decide) ?_ rfl hpart
  intro k hk
  cases hk
  exact isName_ofList (by decide)

theorem value?_modelKind (policy : Policy) (s : Scope) (name : Text) (r : ReferenceType)
    (i n : Nat) :
    (member "model" "dataType").value? policy (s.enter (modelRound name r i n)) =
      some (.literal r.kind.name) := by
  refine value?_model policy s name r i n _ (isName_ofList (by decide)) ?_
  cases r with
  | object properties additional => exact Path.part?_record _ _
  | enumeration values => exact Path.part?_record _ _
  | «alias» type => exact Path.part?_record _ _

end Models

end RouteModule.Layout
