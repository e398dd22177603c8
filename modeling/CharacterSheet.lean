import CharacterSheet.Bonus.Aggregate
import CharacterSheet.Bonus.Source
import CharacterSheet.Bonus.Stat
import CharacterSheet.Bonus.Table
import CharacterSheet.Change.Basic
import CharacterSheet.Change.Compilation
import CharacterSheet.Change.Contextual
import CharacterSheet.Change.LevelTable
import CharacterSheet.Change.Special
import CharacterSheet.Character.Basic
import CharacterSheet.Character.Class
import CharacterSheet.Character.Content
import CharacterSheet.Character.Item
import CharacterSheet.Character.Keys
import CharacterSheet.Character.Size
import CharacterSheet.Character.Skill
import CharacterSheet.Comparison
import CharacterSheet.Condition.Basic
import CharacterSheet.Condition.Evaluation
import CharacterSheet.Config
import CharacterSheet.Dependency.Graph
import CharacterSheet.Dependency.Order
import CharacterSheet.Entity.Basic
import CharacterSheet.Entity.Variables
import CharacterSheet.Error
import CharacterSheet.Filter.Basic
import CharacterSheet.Filter.Evaluation
import CharacterSheet.FirstOccurrences
import CharacterSheet.Formula.Basic
import CharacterSheet.Formula.Expression
import CharacterSheet.Formula.Parser
import CharacterSheet.Formula.Token
import CharacterSheet.Index.Basic
import CharacterSheet.Json.Basic
import CharacterSheet.Json.Equality
import CharacterSheet.Json.Reader
import CharacterSheet.Json.Record
import CharacterSheet.Json.Writer
import CharacterSheet.Numeric.Decimal
import CharacterSheet.Numeric.Dyadic
import CharacterSheet.Numeric.Layout
import CharacterSheet.Numeric.Rounding
import CharacterSheet.Phase
import CharacterSheet.Provider.Basic
import CharacterSheet.Provider.Resolution
import CharacterSheet.Query.Expression
import CharacterSheet.Query.FieldPath
import CharacterSheet.Query.Parser
import CharacterSheet.Query.Token
import CharacterSheet.Selection.Basic
import CharacterSheet.Sheet
import CharacterSheet.SortedMap
import CharacterSheet.Statistic.Ability
import CharacterSheet.Statistic.Basic
import CharacterSheet.Statistic.Body
import CharacterSheet.Statistic.Combat
import CharacterSheet.Statistic.Defense
import CharacterSheet.Statistic.Resource
import CharacterSheet.Statistic.Skill
import CharacterSheet.Statistic.Spell
import CharacterSheet.Statistic.Variable
import CharacterSheet.Suppression.Calculation
import CharacterSheet.Suppression.Rule
import CharacterSheet.Text.Affix
import CharacterSheet.Text.Blank
import CharacterSheet.Variable
import CharacterSheet.Proofs.Formula.Grammar
import CharacterSheet.Proofs.Formula.Soundness
import CharacterSheet.Proofs.Formula.Completeness
import CharacterSheet.Proofs.Formula.Parsing
import CharacterSheet.Proofs.Index.Publishing
import CharacterSheet.Proofs.Sheet.Publishing
import CharacterSheet.Proofs.Suppression.Acting
import CharacterSheet.Proofs.Suppression.Transitivity
import CharacterSheet.Proofs.Formula.References
import CharacterSheet.Proofs.Condition.Reads
import CharacterSheet.Proofs.Dependency.Cycle
import CharacterSheet.Proofs.Dependency.Graph
import CharacterSheet.Proofs.Dependency.Order
import CharacterSheet.Proofs.Dependency.Sorting
import CharacterSheet.Proofs.Statistic.VariableOrder
import CharacterSheet.Proofs.Statistic.VariableFixpoint
import CharacterSheet.Proofs.Numeric.Comparison
import CharacterSheet.Proofs.Bonus.Amounts
import CharacterSheet.Proofs.Bonus.Repetition
import CharacterSheet.Proofs.Bonus.Reordering
import CharacterSheet.Proofs.Bonus.Raising
import CharacterSheet.Proofs.Bonus.Stacking
import CharacterSheet.Proofs.Bonus.Incremental
import CharacterSheet.Proofs.Numeric.Zero
import CharacterSheet.Proofs.Numeric.Nearest
import CharacterSheet.Proofs.Numeric.Packing
import CharacterSheet.Proofs.Numeric.Scientific
import CharacterSheet.Proofs.Numeric.Shortest
import CharacterSheet.Proofs.Numeric.Digits
import CharacterSheet.Proofs.Numeric.Magnitude
import CharacterSheet.Proofs.Numeric.Written
import CharacterSheet.Proofs.Formula.Number
import CharacterSheet.Proofs.Change.KeyFree
import CharacterSheet.Proofs.Statistic.KeyFree
import CharacterSheet.Proofs.Statistic.GatedChange
import CharacterSheet.Proofs.Phase.Namespace
import CharacterSheet.Proofs.Phase.Reads
import CharacterSheet.Proofs.Phase.Spells
import CharacterSheet.Proofs.Phase.Order
import CharacterSheet.Proofs.Sheet.PhaseOrder
import CharacterSheet.Proofs.Sheet.GatedChange
import CharacterSheet.Proofs.Dependency.Circle
import CharacterSheet.Proofs.Formula.Locality
import CharacterSheet.Proofs.Phase.Alike
import CharacterSheet.Proofs.Suppression.Stability
import CharacterSheet.Proofs.Sheet.InertContent
import CharacterSheet.Proofs.Except
import CharacterSheet.Proofs.Places
import CharacterSheet.Proofs.Selection.Bounds
import CharacterSheet.Proofs.Query.Reading
import CharacterSheet.Proofs.Query.Scanning
import CharacterSheet.Proofs.Query.Pipe
import CharacterSheet.Proofs.Query.Precedence
import CharacterSheet.Proofs.Query.Literal
import CharacterSheet.Proofs.Query.DottedPath
import CharacterSheet.Proofs.Dependency.Sooner
import CharacterSheet.Proofs.Statistic.GateOrder
import CharacterSheet.Proofs.Text.Blank
import CharacterSheet.Proofs.Json.Record
import CharacterSheet.Proofs.Json.Grammar
import CharacterSheet.Proofs.Json.Literals
import CharacterSheet.Proofs.Json.Parsing
import CharacterSheet.Proofs.Condition.Restored
import CharacterSheet.Proofs.Change.Restored
import CharacterSheet.Proofs.Entity.Restored
import CharacterSheet.Proofs.Filter.Verdict
import CharacterSheet.Proofs.Selection.Offer
import CharacterSheet.Proofs.Filter.BrokenQuery
import CharacterSheet.Proofs.Sheet.Turn
import CharacterSheet.Proofs.Sheet.SpellNumbers
import CharacterSheet.Proofs.Sheet.ClassLevel
import CharacterSheet.Proofs.Sheet.Spelling
import CharacterSheet.Proofs.Sheet.VariableValue
import CharacterSheet.Proofs.Statistic.Gathering
import CharacterSheet.Proofs.Sheet.SlotMaximum
import CharacterSheet.Proofs.Sheet.Routing
import CharacterSheet.Proofs.Suppression.Claims
import CharacterSheet.Proofs.Bonus.Restriction
import CharacterSheet.Proofs.Statistic.ArmorClass
import CharacterSheet.Proofs.Selection.Validation
import CharacterSheet.Proofs.Statistic.VariableCoverage
import CharacterSheet.Proofs.Provider.Granting
import CharacterSheet.Proofs.Provider.Offering
import CharacterSheet.Proofs.Change.Unreadable
import CharacterSheet.Proofs.Json.Writing
import CharacterSheet.Proofs.Config.Restored
import CharacterSheet.Proofs.Entity.Variables
import CharacterSheet.Proofs.Dependency.Stability
import CharacterSheet.Proofs.Query.Quoting
import CharacterSheet.Proofs.Descent
import CharacterSheet.Proofs.Query.Descent
import CharacterSheet.Proofs.Formula.Descent
import CharacterSheet.Proofs.Parsing
import CharacterSheet.Proofs.Json.Equality
import CharacterSheet.Proofs.Condition.Nesting
