import RouteModule.Generation
import RouteModule.Proofs.RoutePath.Groups

/-!
The paths of a route context in the two styles. In the style of colons the paths of controllers and of
methods hold no group, and a full path holds one just if the base path does, which is not rewritten.
Where the base path holds none, the context in the style of colons is the one in the style of braces
with all of its paths rewritten.
-/

namespace RouteModule

open RoutePath

/-- A route whose paths are rewritten. -/
def Action.mapPaths (f : Text → Text) (a : Action) : Action :=
  { a with fullPath := f a.fullPath, path := f a.path }

/-- The routes of a controller with all paths rewritten. -/
def ControllerRoutes.mapPaths (f : Text → Text) (c : ControllerRoutes) : ControllerRoutes :=
  { c with actions := c.actions.map (Action.mapPaths f), path := f c.path }

/-- A context in which the paths of all controllers and routes are rewritten. -/
def RouteContext.mapPaths (f : Text → Text) (c : RouteContext) : RouteContext :=
  { c with controllers := c.controllers.map (ControllerRoutes.mapPaths f) }

/-- Below a base path without a group, the route in the style of colons is the one in the style of
braces with its paths rewritten. -/
theorem Action.ofMethod_colon {basePath controllerPath : Text} (hbase : groups basePath = [])
    (hcontroller : Parted controllerPath) (m : Method) :
    ofMethod .colon basePath (toColons controllerPath) m =
      (ofMethod .brace basePath controllerPath m).mapPaths toColons := by
  have hfull : rooted (basePath ++ toColons controllerPath ++ toColons (segment m.path)) =
      toColons (rooted (basePath ++ controllerPath ++ segment m.path)) := by
    rw [toColons_rooted, toColons_append (parted_segment m.path), toColons_append hcontroller,
      toColons_eq_self hbase]
  simp only [ofMethod, mapPaths, PathStyle.transform, hfull]

theorem ControllerRoutes.ofController_colon {basePath : Text} (hbase : groups basePath = [])
    (cwd : Text) (o : Options) (c : Controller) :
    ofController .colon cwd basePath o c =
      (ofController .brace cwd basePath o c).mapPaths toColons := by
  have haction : ∀ m, Action.ofMethod .colon basePath (toColons (segment c.path)) m =
      (Action.ofMethod .brace basePath (segment c.path) m).mapPaths toColons :=
    Action.ofMethod_colon hbase (parted_segment c.path)
  simp only [ofController, mapPaths, PathStyle.transform, List.map_map, ControllerRoutes.mk.injEq,
    and_true]
  exact List.map_congr_left fun m _ => haction m

/-- Rewriting paths does not change which routes ask for authentication. -/
theorem ControllerRoutes.any_isSecured_mapPaths (f : Text → Text) (ks : List ControllerRoutes) :
    ((ks.map (mapPaths f)).any fun k => k.actions.any fun a => !a.security.isEmpty) =
      ks.any fun k => k.actions.any fun a => !a.security.isEmpty := by
  rw [List.any_map]
  congr 1
  funext k
  simp only [Function.comp_apply, mapPaths, List.any_map]
  rfl

namespace RouteContext

variable {s t : Strategy} {o : Options}

/-- Where the base path holds no group, what a template of a framework with colons knows is what one
with braces knows, with the paths of all controllers and routes rewritten. -/
theorem ofMetadata_colon_eq (hs : s.pathStyle = .colon) (ht : t.pathStyle = .brace)
    (hbase : ¬ HasGroup o.basePath) (cwd : Text) (m : Metadata) :
    ofMetadata s.pathStyle cwd m o = (ofMetadata t.pathStyle cwd m o).mapPaths toColons := by
  have hrooted : groups (rooted o.basePath) = [] := by
    rw [groups_rooted]
    rwa [hasGroup_iff, not_not] at hbase
  have hcontrollers :
      m.controllers.map (ControllerRoutes.ofController .colon cwd (rooted o.basePath) o) =
        (m.controllers.map (ControllerRoutes.ofController .brace cwd (rooted o.basePath) o)).map
          (ControllerRoutes.mapPaths toColons) := by
    rw [List.map_map]
    apply List.map_congr_left
    intro c _
    exact ControllerRoutes.ofController_colon hrooted cwd o c
  rw [hs, ht]
  simp only [ofMetadata, mapPaths, hcontrollers, ControllerRoutes.any_isSecured_mapPaths]

/-- Options with a base path that has a brace, but no group. -/
def braceOptions : Options := { Options.ofRoutesDir "src".toList with basePath := "/v\x7b1 ".toList }

/-- A controller whose paths have groups, other braces, and edges of all kinds. -/
def braceMetadata : Metadata :=
  ⟨[⟨"Users".toList, "src/users.ts".toList, "\\users/\x7bid\x7d/".toList,
    [⟨"find".toList, .get, " \x7b\x7b\x7d/\x7ba-b\x7d\x7bc\x7d\\".toList, [], none, []⟩]⟩], []⟩

theorem ofMetadata_colon_eq_braces :
    (Strategy.ofFramework .koa).pathStyle = .colon ∧ (Strategy.ofFramework .hapi).pathStyle = .brace ∧
    ¬ HasGroup braceOptions.basePath ∧
    ofMetadata (Strategy.ofFramework .koa).pathStyle [] braceMetadata braceOptions =
      (ofMetadata (Strategy.ofFramework .hapi).pathStyle [] braceMetadata braceOptions).mapPaths
        toColons := by
  have hbase : ¬ HasGroup braceOptions.basePath := by decide
  exact ⟨rfl, rfl, hbase, ofMetadata_colon_eq rfl rfl hbase [] braceMetadata⟩

end RouteContext

namespace Generator

/-- In the style of colons no path of a controller or of a method holds a group, and the groups of a
full path are those of the base path. -/
theorem groups_fullPath {g : Generator} (hstyle : g.strategy.pathStyle = .colon) (cwd : Text) :
    ∀ k ∈ (g.context cwd).controllers, ¬ HasGroup k.path ∧
      ∀ a ∈ k.actions, ¬ HasGroup a.path ∧
        groups a.fullPath = groups g.options.basePath ∧
        (HasGroup a.fullPath ↔ HasGroup g.options.basePath) := by
  have hnone : ∀ u, ¬ HasGroup (toColons u) := by
    intro u
    rw [hasGroup_iff, not_not]
    exact groups_toColons u
  intro k hk
  simp only [context, RouteContext.ofMetadata, hstyle, List.mem_map] at hk
  obtain ⟨c, -, rfl⟩ := hk
  refine ⟨hnone _, fun a ha => ?_⟩
  simp only [ControllerRoutes.ofController, List.mem_map] at ha
  obtain ⟨m, -, rfl⟩ := ha
  have hfull : groups (Action.ofMethod .colon (rooted g.options.basePath)
      (PathStyle.colon.transform (segment c.path)) m).fullPath = groups g.options.basePath := by
    simp only [Action.ofMethod, PathStyle.transform]
    rw [groups_rooted, groups_append (parted_segment m.path).toColons,
      groups_append (parted_segment c.path).toColons, groups_toColons, groups_toColons,
      groups_rooted, List.append_nil, List.append_nil]
  refine ⟨hnone _, hfull, ?_⟩
  rw [hasGroup_iff, hfull, hasGroup_iff]

/-- The generator of one route below a base path with a group. -/
def tenantGenerator : Generator :=
  ⟨⟨[⟨"Users".toList, "src/users.ts".toList, "users".toList,
      [⟨"find".toList, .get, "\x7bid\x7d".toList, [], none, []⟩]⟩], []⟩,
    { Options.ofRoutesDir "src".toList with basePath := "/\x7btenant\x7d".toList }⟩

theorem groups_fullPath_tenant :
    tenantGenerator.strategy.pathStyle = .colon ∧
    ∀ k ∈ (tenantGenerator.context []).controllers, ¬ HasGroup k.path ∧
      ∀ a ∈ k.actions, ¬ HasGroup a.path ∧
        groups a.fullPath = ["tenant".toList] ∧ HasGroup a.fullPath := by
  have hstyle : tenantGenerator.strategy.pathStyle = .colon := rfl
  have hwords : groups tenantGenerator.options.basePath = ["tenant".toList] := by decide
  have hbase : HasGroup tenantGenerator.options.basePath := by decide
  refine ⟨hstyle, fun k hk => ?_⟩
  obtain ⟨hcontroller, hactions⟩ := groups_fullPath hstyle [] k hk
  refine ⟨hcontroller, fun a ha => ?_⟩
  obtain ⟨hpath, hgroups, hfull⟩ := hactions a ha
  exact ⟨hpath, hgroups.trans hwords, hfull.2 hbase⟩

/-- The group of the base path is in the full path of the route. -/
theorem tenant_fullPath_hasGroup :
    tenantGenerator.strategy.pathStyle = .colon ∧
    ∃ k ∈ (tenantGenerator.context []).controllers, ∃ a ∈ k.actions,
      a.fullPath = "/\x7btenant\x7d/users/:id".toList ∧ HasGroup a.fullPath := by
  refine ⟨rfl, _, List.mem_cons_self, _, List.mem_cons_self, ?_⟩
  have husers : toColons (segment "users".toList) = "/users".toList := toColons_eq_self (by decide)
  have hslash : toColons (segment "\x7bid\x7d".toList) = '/' :: toColons "\x7bid\x7d".toList :=
    toColons_cons rfl
  have hid : toColons "\x7bid\x7d".toList = ':' :: "id".toList ++ toColons [] :=
    toColons_of_group rfl
  have hfull : rooted (rooted tenantGenerator.options.basePath ++
      toColons (segment "users".toList) ++ toColons (segment "\x7bid\x7d".toList)) =
      "/\x7btenant\x7d/users/:id".toList := by
    rw [husers, hslash, hid, toColons_nil]
    decide
  have hgroup : HasGroup "/\x7btenant\x7d/users/:id".toList := by decide
  rw [← hfull] at hgroup
  exact ⟨hfull, hgroup⟩

end Generator

end RouteModule
