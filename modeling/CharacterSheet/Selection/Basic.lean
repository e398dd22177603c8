import CharacterSheet.Filter.Evaluation
import CharacterSheet.Provider.Basic

/-!
# Choosing entities

A choice is refused only for the sake of numbers: because there is no
selector, the entity is chosen already or no choice is left.  Whatever else
speaks against an entity is a warning, so that content outside the rules can
still be chosen.
-/

namespace CharacterSheet

/-- Why a choice is refused or a selection is not valid. -/
inductive SelectionError where
  | noSelector
  | alreadySelected (id : String)
  | maxReached (max : Nat)
  | minNotMet (min current : Nat)
  | maxExceeded (max current : Nat)
  deriving DecidableEq

namespace SelectionError

def message : SelectionError → String
  | noSelector => "Provider has no selector configuration"
  | alreadySelected id => "Entity '" ++ id ++ "' is already selected"
  | maxReached max => "Maximum selections (" ++ toString max ++ ") already reached"
  | minNotMet min current =>
    "Minimum selections (" ++ toString min ++ ") not met. Current: " ++ toString current
  | maxExceeded max current =>
    "Maximum selections (" ++ toString max ++ ") exceeded. Current: " ++ toString current

end SelectionError

/-- What speaks against an entity that is chosen. -/
inductive SelectionWarning where
  | filteredOut (id : String)
  | filterMismatch (id : String)
  | noLongerMeetsFilter (id : String)
  | notAllowed (id : String)
  | wrongType (id : String) (actual : Option String) (expected : String)
  | notFound (id : String)
  deriving DecidableEq

namespace SelectionWarning

def message : SelectionWarning → String
  | filteredOut id => "Entity '" ++ id ++ "' does not meet filter criteria (filtered out)"
  | filterMismatch id => "Entity '" ++ id ++ "' does not meet filter criteria"
  | noLongerMeetsFilter id => "Entity '" ++ id ++ "' no longer meets filter criteria"
  | notAllowed id => "Entity '" ++ id ++ "' is not in the allowed entity IDs list"
  | wrongType id actual expected =>
    "Entity '" ++ id ++ "' has type '" ++ actual.getD "undefined" ++ "' but selector expects '" ++
      expected ++ "'"
  | notFound id => "Entity '" ++ id ++ "' is not found in available entities"

/-- The id of the entity that the warning is about. -/
def entity : SelectionWarning → String
  | filteredOut id => id
  | filterMismatch id => id
  | noLongerMeetsFilter id => id
  | notAllowed id => id
  | wrongType id _ _ => id
  | notFound id => id

end SelectionWarning

namespace Selection

/-- Whether the filter of a selector, if it has one, rejects an entity. -/
def rejectedByFilter (selector : Selector) (entity : Entity) (index : Index) : Bool :=
  selector.filter.any fun filter => !filter.admits entity.view index

/-- Whether a selector lists the ids it allows and an entity is not among
them. -/
def isNotAllowed (selector : Selector) (entity : Entity) : Bool :=
  !selector.allowed.isEmpty && !selector.allowed.contains entity.id

/-- The warning that an entity is not of the type of a selector. -/
def typeWarning? (selector : Selector) (entity : Entity) : Option SelectionWarning :=
  match selector.type with
  | none => none
  | some expected =>
    if entity.type == some expected then none
    else some (.wrongType entity.id entity.type expected)

/-- Whether an entity is missing from a catalog. -/
def isUnknown (catalog : List Entity) (entity : Entity) : Bool :=
  !catalog.any fun other => other.id == entity.id

/-- How a new choice that the filter rejects is reported, which depends on the
policy of the filter. -/
def rejection (selector : Selector) (id : String) : SelectionWarning :=
  if (selector.filter.map (·.policy)) = some .permissive then .filterMismatch id
  else .filteredOut id

/-- A warning, if there is cause for it. -/
def warnIf (cause : Bool) (warning : SelectionWarning) : List SelectionWarning :=
  if cause then [warning] else []

/-- What speaks against choosing an entity. -/
def choiceWarnings (selector : Selector) (entity : Entity) (catalog : List Entity)
    (index : Index) : List SelectionWarning :=
  warnIf (rejectedByFilter selector entity index) (rejection selector entity.id) ++
    warnIf (isNotAllowed selector entity) (.notAllowed entity.id) ++
    (typeWarning? selector entity).toList ++
    warnIf (isUnknown catalog entity) (.notFound entity.id)

/-- Why a choice is refused, if it is. -/
def refusal? (provider : Provider) (entity : Entity) : Option SelectionError :=
  match provider.selector with
  | none => some .noSelector
  | some selector =>
    if provider.entities.selected.any fun other => other.id == entity.id then
      some (.alreadySelected entity.id)
    else if selector.max ≤ provider.entities.selected.length then some (.maxReached selector.max)
    else none

/-- The same provider with other selected entities. -/
def withSelected (provider : Provider) (selected : List Entity) : Provider :=
  { provider with entities := { provider.entities with selected := selected } }

/-- The outcome of a choice. -/
structure Applied where
  /-- The provider with the choice made, or as it was if that is refused. -/
  provider : Provider
  warnings : List SelectionWarning
  errors : List SelectionError

namespace Applied

/-- Whether the choice was made. -/
def isApplied (applied : Applied) : Bool :=
  applied.errors.isEmpty

end Applied

/-- Choose an entity. -/
def apply (provider : Provider) (entity : Entity) (catalog : List Entity) (index : Index) :
    Applied :=
  match refusal? provider entity with
  | some error => ⟨provider, [], [error]⟩
  | none =>
    ⟨withSelected provider (provider.entities.selected ++ [entity]),
      provider.selector.elim [] fun selector => choiceWarnings selector entity catalog index, []⟩

/-- Give up the choice of an entity. -/
def remove (provider : Provider) (id : String) : Provider :=
  withSelected provider (provider.entities.selected.filter (·.id != id))

/-- The outcome of checking all choices. -/
structure Validation where
  warnings : List SelectionWarning
  errors : List SelectionError

namespace Validation

/-- Whether the choices keep to the bounds. -/
def isValid (validation : Validation) : Bool :=
  validation.errors.isEmpty

end Validation

/-- Which bounds a number of choices breaks. -/
def boundErrors (selector : Selector) (current : Nat) : List SelectionError :=
  (if current < selector.min then [.minNotMet selector.min current] else []) ++
    if selector.max < current then [.maxExceeded selector.max current] else []

/-- What speaks against the entities chosen so far, cause by cause. -/
def heldWarnings (selector : Selector) (selected catalog : List Entity) (index : Index) :
    List SelectionWarning :=
  (selected.flatMap fun entity =>
      warnIf (rejectedByFilter selector entity index) (.noLongerMeetsFilter entity.id)) ++
    (selected.flatMap fun entity =>
      warnIf (isNotAllowed selector entity) (.notAllowed entity.id)) ++
    (selected.flatMap fun entity => (typeWarning? selector entity).toList) ++
    selected.flatMap fun entity => warnIf (isUnknown catalog entity) (.notFound entity.id)

/-- Check all choices of a provider.  Without a selector there is nothing to
check. -/
def validate (provider : Provider) (catalog : List Entity) (index : Index) : Validation :=
  match provider.selector with
  | none => ⟨[], []⟩
  | some selector =>
    let selected := provider.entities.selected
    ⟨heldWarnings selector selected catalog index, boundErrors selector selected.length⟩

end Selection

end CharacterSheet
