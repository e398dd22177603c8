import CharacterSheet.Filter.Evaluation
import CharacterSheet.Provider.Basic

/-!
# What a provider offers

A provider is resolved against a catalog of entities and a way to look up
single ones by id.  The grant and the selector are resolved independently.

The granted entities are those looked up, in the order of their ids, and then
those of the catalog that match the filter, each id once.  The selector's pool
is the catalog, or what is looked up if the selector lists ids; it is narrowed
by type and judged by the filter.
-/

namespace CharacterSheet

/-- What can be odd about a provider. -/
inductive ProviderWarning where
  | entityNotFound (id : String)
  | invalidFilter (problem : SheetError)
  | boundsCrossed (selector : Selector)
  | emptyProvider
  | unknownEntityType (selector type : String)

namespace ProviderWarning

/-- The kind of the warning. -/
def kind : ProviderWarning → String
  | entityNotFound _ => "entity_not_found"
  | invalidFilter _ => "invalid_filter"
  | boundsCrossed _ => "invalid_provider"
  | emptyProvider => "empty_provider"
  | unknownEntityType _ _ => "unknown_entity_type"

def message : ProviderWarning → String
  | entityNotFound id => "Entity with ID '" ++ id ++ "' not found"
  | invalidFilter problem => problem.message
  | boundsCrossed selector =>
    "Selector '" ++ selector.id ++ "' has min (" ++ toString selector.min ++
      ") greater than max (" ++ toString selector.max ++ ")"
  | emptyProvider => "EntityProvider has neither granted nor selector configuration"
  | unknownEntityType selector type =>
    "Selector '" ++ selector ++ "' refers to unknown entity type '" ++ type ++ "'"

/-- The entity that the warning is about. -/
def entity? : ProviderWarning → Option String
  | entityNotFound id => some id
  | _ => none

def toJson (warning : ProviderWarning) : Json :=
  .object ([("type", .str warning.kind), ("message", .str warning.message)] ++
    Members.ofOption "entityId" .str warning.entity?)

/-- The warnings about queries of a filter that cannot be parsed. -/
def ofFilter : Option Filter → List ProviderWarning
  | none => []
  | some filter => filter.invalidQueries.map invalidFilter

/-- The warnings about ids that cannot be looked up. -/
def ofMissing (find? : String → Option Entity) (ids : List String) : List ProviderWarning :=
  (ids.filter fun id => (find? id).isNone).map entityNotFound

end ProviderWarning

namespace Provider

/-- Entities with the warnings that came up when they were gathered. -/
structure GrantResolution where
  entities : List Entity
  warnings : List ProviderWarning

/-- Verdicts with the warnings that came up when they were gathered. -/
structure SelectorResolution where
  eligible : List Verdict
  warnings : List ProviderWarning

/-- What a provider offers. -/
structure Resolution where
  granted : Option GrantResolution
  selector : Option SelectorResolution
  warnings : List ProviderWarning

/-- Each entity unless one of its id came before. -/
def distinctById (entities : List Entity) : List Entity :=
  entities.foldl
    (fun seen entity =>
      if seen.any fun other => other.id == entity.id then seen else seen ++ [entity])
    []

/-- Gather what is granted. -/
def resolveGrant (grant : Grant) (catalog : List Entity) (find? : String → Option Entity)
    (index : Index) : GrantResolution :=
  let matched :=
    match grant.filter with
    | none => []
    | some filter => catalog.filter fun entity => filter.admits entity.view index
  ⟨distinctById (grant.ids.filterMap find? ++ matched),
    ProviderWarning.ofMissing find? grant.ids ++ ProviderWarning.ofFilter grant.filter⟩

/-- The warning that no entity of the catalog has the type of a selector. -/
def typeWarnings (selector : Selector) (catalog : List Entity) : List ProviderWarning :=
  match selector.type with
  | none => []
  | some type =>
    if catalog.any fun entity => entity.type == some type then []
    else [.unknownEntityType selector.id type]

/-- The entities among which a selector offers a choice, before its filter. -/
def pool (selector : Selector) (catalog : List Entity) (find? : String → Option Entity) :
    List Entity :=
  let listed :=
    if selector.allowed.isEmpty then catalog else selector.allowed.filterMap find?
  match selector.type with
  | none => listed
  | some type => listed.filter fun entity => entity.type == some type

/-- Gather what a selector offers. -/
def resolveSelector (selector : Selector) (catalog : List Entity)
    (find? : String → Option Entity) (index : Index) : SelectorResolution :=
  let bounds := if selector.max < selector.min then [.boundsCrossed selector] else []
  ⟨Filter.apply selector.filter.toList (pool selector catalog find?) index,
    bounds ++ ProviderWarning.ofMissing find? selector.allowed ++ typeWarnings selector catalog ++
      ProviderWarning.ofFilter selector.filter⟩

/-- What a provider offers from a catalog. -/
def resolve (provider : Provider) (catalog : List Entity) (find? : String → Option Entity)
    (index : Index) : Resolution :=
  { granted := provider.granted.map fun grant => resolveGrant grant catalog find? index
    selector := provider.selector.map fun selector => resolveSelector selector catalog find? index
    warnings :=
      if provider.granted.isNone && provider.selector.isNone then [.emptyProvider] else [] }

namespace Resolution

/-- All warnings: about the provider itself, the grant and the selector. -/
def allWarnings (resolution : Resolution) : List ProviderWarning :=
  resolution.warnings ++ (resolution.granted.elim [] (·.warnings)) ++
    (resolution.selector.elim [] (·.warnings))

end Resolution

end Provider

end CharacterSheet
