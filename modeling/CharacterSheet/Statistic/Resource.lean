import CharacterSheet.Statistic.Basic

/-!
# Resources of the sheet

Each property of a resource is the value of its formula with the changes to
the variable that stands for the property.  The current value is what play has
left; before play it is the initial value, or the maximum.
-/

namespace CharacterSheet

/-- A resource of the sheet. -/
structure ResourceStat where
  definition : Resource
  maximum : Stat
  minimum : Stat
  current : Float
  chargesPerUse : Stat
  recharge : Stat

namespace ResourceStat

def toJson (resource : ResourceStat) : Json :=
  .object ([("resourceId", .str resource.definition.id), ("name", .str resource.definition.name)] ++
    Members.ofOption "description" .str resource.definition.description ++
    [("maxValue", resource.maximum.toJson), ("minValue", resource.minimum.toJson),
      ("currentValue", .ofFloat resource.current),
      ("defaultChargesPerUse", resource.chargesPerUse.toJson),
      ("rechargeAmount", resource.recharge.toJson)])

/-- The values published for the resource. -/
def published (resource : ResourceStat) : List (String × Float) :=
  let key (property : ResourceProperty) : String :=
    (resource.definition.propertyVariable property).name
  [(key .maximum, resource.maximum.total), (key .minimum, resource.minimum.total),
    (resource.definition.key "current", resource.current),
    (key .chargesPerUse, resource.chargesPerUse.total),
    (key .recharge, resource.recharge.total)]

end ResourceStat

namespace Calculation

/-- Calculate a property of a resource. -/
def resourceProperty (calculation : Calculation) (index : Index) (resource : Resource)
    (property : ResourceProperty) (formula : Formula) : Stat :=
  calculation.resolve
    (Source.of (formula.evaluate index) BonusType.base (resource.name ++ " " ++ property.name)
        resource.id ::
      calculation.sourcesOf index (.customVariable (resource.propertyVariable property)))

/-- Calculate one resource. -/
def resourceStat (calculation : Calculation) (index : Index) (resource : Resource) :
    ResourceStat :=
  let property := calculation.resourceProperty index resource
  let maximum := property .maximum resource.maximum
  let current :=
    match calculation.character.resources.find? resource.id, resource.initial with
    | some state, _ => state.current
    | none, some formula => (property .initial formula).total
    | none, none => maximum.total
  { definition := resource, maximum, current
    minimum := property .minimum resource.minimum
    chargesPerUse := property .chargesPerUse resource.chargesPerUse
    recharge := property .recharge resource.recharge }

/-- The resources that count: of two definitions with one id the first. -/
def distinctResources (resources : List Resource) : List Resource :=
  (firstOccurrences (resources.map (·.id))).filterMap fun id => resources.find? (·.id == id)

/-- Calculate all resources. -/
def resources (calculation : Calculation) (index : Index) :
    PhaseResult (SortedMap String ResourceStat) :=
  let resources := (distinctResources calculation.compiled.resources).map
    (calculation.resourceStat index)
  .of (SortedMap.ofList (resources.map fun resource => (resource.definition.id, resource)))
    (resources.flatMap (·.published))

end Calculation

end CharacterSheet
