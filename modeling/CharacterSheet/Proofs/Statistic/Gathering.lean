import CharacterSheet.Proofs.Formula.Number
import CharacterSheet.Proofs.Statistic.Routing

/-!
# Variables that are defined several times

The declaration of a variable gathers the base sources of all its definitions,
in the order in which they are given.  Where base values add up, the value of a
variable that numbers are given for, and that no change affects, is the total of
all these numbers.
-/

namespace CharacterSheet

namespace VariableDefinition

/-- The base sources that some definitions give to a variable. -/
def sourcesFor (id : VariableId) (definitions : List VariableDefinition) : List VariableSource :=
  (definitions.filter (·.id == id)).flatMap (·.sources)

/-- Every declaration has the base sources that some definitions give to its
variable, and the variables of these definitions are declared. -/
structure Gathers (declared definitions : List VariableDefinition) : Prop where
  sources : ∀ known ∈ declared, known.sources = sourcesFor known.id definitions
  covers : ∀ definition ∈ definitions, definition.id ∈ declared.map (·.id)

variable {declared definitions : List VariableDefinition}

theorem sourcesFor_eq_nil {id : VariableId}
    (others : ∀ definition ∈ definitions, definition.id ≠ id) : sourcesFor id definitions = [] := by
  have none : definitions.filter (·.id == id) = [] :=
    List.filter_eq_nil_iff.mpr fun definition member same =>
      others definition member (eq_of_beq same)
  rw [sourcesFor, none, List.flatMap_nil]

theorem sourcesFor_append (id : VariableId) (first second : List VariableDefinition) :
    sourcesFor id (first ++ second) = sourcesFor id first ++ sourcesFor id second := by
  rw [sourcesFor, List.filter_append, List.flatMap_append, sourcesFor, sourcesFor]

theorem sourcesFor_singleton (definition : VariableDefinition) :
    sourcesFor definition.id [definition] = definition.sources := by
  simp [sourcesFor]

theorem sourcesFor_concat_of_ne {id : VariableId} {definition : VariableDefinition}
    (other : definition.id ≠ id) :
    sourcesFor id (definitions ++ [definition]) = sourcesFor id definitions := by
  have none : sourcesFor id [definition] = [] :=
    sourcesFor_eq_nil (List.forall_mem_singleton.mpr other)
  rw [sourcesFor_append, none, List.append_nil]

/-- Declaring a variable once more gathers one more definition. -/
theorem Gathers.declare (gathers : Gathers declared definitions)
    (definition : VariableDefinition) :
    Gathers (declare declared definition) (definitions ++ [definition]) := by
  constructor
  · intro known member
    unfold VariableDefinition.declare at member
    split at member
    · rcases List.mem_map.mp member with ⟨old, listed, rfl⟩
      by_cases same : old.id = definition.id
      · rw [if_pos (beq_iff_eq.mpr same)]
        dsimp only
        rw [sourcesFor_append, same, sourcesFor_singleton, ← same, gathers.sources old listed]
      · rw [if_neg (beq_iff_eq.not.mpr same), gathers.sources old listed,
          sourcesFor_concat_of_ne (Ne.symm same)]
    · rename_i undeclared
      rcases List.mem_append.mp member with old | new
      · have other : definition.id ≠ known.id := by
          intro same
          exact undeclared ((any_key_iff VariableDefinition.id).mpr (same ▸ List.mem_map_of_mem old))
        rw [gathers.sources known old, sourcesFor_concat_of_ne other]
      · have first : ∀ earlier ∈ definitions, earlier.id ≠ definition.id := by
          intro earlier given same
          exact undeclared ((any_key_iff VariableDefinition.id).mpr (same ▸ gathers.covers earlier given))
        rw [List.mem_singleton.mp new]
        dsimp only
        rw [sourcesFor_append, sourcesFor_eq_nil first, sourcesFor_singleton, List.nil_append]
  · intro given member
    rw [map_id_declare, mem_appendNew]
    rcases List.mem_append.mp member with old | new
    · exact Or.inl (gathers.covers given old)
    · exact Or.inr (congrArg _ (List.mem_singleton.mp new))

/-- Declaring a variable that has no definition gathers nothing. -/
theorem Gathers.declareBare (gathers : Gathers declared definitions) (id : VariableId) :
    Gathers (declareBare declared id) definitions := by
  constructor
  · intro known member
    unfold VariableDefinition.declareBare at member
    split at member
    · exact gathers.sources known member
    · rename_i undeclared
      rcases List.mem_append.mp member with old | new
      · exact gathers.sources known old
      · have others : ∀ definition ∈ definitions, definition.id ≠ id := by
          intro definition given same
          exact undeclared ((any_key_iff VariableDefinition.id).mpr (same ▸ gathers.covers definition given))
        rw [List.mem_singleton.mp new]
        exact (sourcesFor_eq_nil others).symm
  · intro definition given
    rw [map_id_declareBare, mem_appendNew]
    exact Or.inl (gathers.covers definition given)

theorem Gathers.foldl (gathers : Gathers declared definitions)
    (more : List VariableDefinition) :
    Gathers (more.foldl VariableDefinition.declare declared) (definitions ++ more) := by
  induction more generalizing declared definitions with
  | nil => rwa [List.append_nil]
  | cons definition rest inductionHypothesis =>
    have following := inductionHypothesis (gathers.declare definition)
    rwa [List.append_assoc, List.singleton_append] at following

end VariableDefinition

/-- The declarations of a calculation gather its definitions. -/
theorem Calculation.gathers_declarations (calculation : Calculation) :
    VariableDefinition.Gathers calculation.declarations
      (calculation.compiled.definitions calculation.character) := by
  have none : VariableDefinition.Gathers [] [] :=
    ⟨fun _ absent => absurd absent List.not_mem_nil, fun _ absent => absurd absent List.not_mem_nil⟩
  have defined := none.foldl (calculation.compiled.definitions calculation.character)
  rw [List.nil_append] at defined
  exact List.foldlRecOn (motive := (VariableDefinition.Gathers · _)) _ _ defined
    fun _ gathers id _ => gathers.declareBare id

namespace Breakdown

variable {table : BonusTable} {sources : List (Source Float)}

/-- Where base values add up, the total of base values alone is that of their
amounts, in order. -/
theorem total_ofSources_of_base (adds : table.addsUp BonusType.base = true)
    (bases : ∀ source ∈ sources, source.type = BonusType.base) :
    (ofSources table sources).total =
      ((sources.map (·.amount)).filter Amount.contributes).foldl (· + ·) 0 := by
  have keptBases : ∀ source ∈ contributing sources, source.type = BonusType.base := by
    intro source member
    rcases List.mem_map.mp member with ⟨original, passes, rfl⟩
    exact bases original (List.mem_filter.mp passes).1
  have unreplaced : (contributing sources).any replaces = false := by
    rw [← Bool.not_eq_true, any_replaces_iff]
    rintro ⟨source, member, replacement⟩
    rw [keptBases source member] at replacement
    exact absurd replacement (by decide)
  have effective : ∀ source ∈ contributing sources,
      effectiveType? ((contributing sources).any replaces) source = some BonusType.base := by
    intro source member
    rw [unreplaced, effectiveType?, replaces, keptBases source member]
    rfl
  -- with a single type present, going through the types one by one changes no order
  have counting : (allCounted table (contributing sources)).map Prod.fst =
      contributing sources := by
    by_cases empty : contributing sources = []
    · rw [empty]
      rfl
    have only : types (contributing sources) = [BonusType.base] := by
      refine List.perm_singleton.mp ((List.perm_ext_iff_of_nodup (nodup_firstOccurrences _)
        (List.nodup_singleton _)).mpr fun type => ?_)
      rw [mem_firstOccurrences, List.mem_filterMap, List.mem_singleton]
      constructor
      · rintro ⟨source, member, isType⟩
        rw [effective source member] at isType
        exact (Option.some.inj isType).symm
      · rintro rfl
        rcases List.exists_mem_of_ne_nil _ empty with ⟨source, member⟩
        exact ⟨source, member, effective source member⟩
    have all : members (contributing sources) BonusType.base = (contributing sources).zipIdx :=
      List.filter_eq_self.mpr fun entry member =>
        beq_iff_eq.mpr (effective entry.1 (List.fst_mem_of_mem_zipIdx member))
    have whole : allCounted table (contributing sources) =
        (types (contributing sources)).flatMap fun type =>
          counted table type (members (contributing sources) type) :=
      rfl
    rw [whole, only, List.flatMap_singleton, counted_of_addsUp adds, all, List.zipIdx_map_fst]
  have amounts : (contributing sources).map (·.amount) =
      (sources.map (·.amount)).filter Amount.contributes := by
    rw [contributing, List.map_map, List.filter_map]
    rfl
  rw [← amounts, List.foldl_map]
  conv_rhs => rw [← counting]
  rw [List.foldl_map]
  rfl

end Breakdown

/-- A number that is written out is read as the number itself, or as zero if it
is not finite. -/
theorem Formula.resolve_plainText (value : Float) (index : Index) :
    resolve (Numeric.plainText value) index = Numeric.orZero value := by
  by_cases finite : value.isFinite = true
  · rw [resolve_of_writesPlainly (Numeric.writesPlainly_plainText finite) finite, Numeric.orZero,
      if_pos finite]
  · rw [Numeric.plainText, Numeric.orZero, if_neg finite, if_neg finite]
    split
    · rfl
    · split <;> rfl

namespace Calculation

variable {calculation : Calculation} {definition : VariableDefinition}

/-- The value of a variable that no change affects, if numbers are given for
it. -/
theorem total_variableStat (adds : calculation.table.addsUp BonusType.base = true)
    (unchanged : ∀ compiled ∈ calculation.compiled.changes,
      compiled.change.target ≠ .customVariable definition.id)
    {name : String} {numbers : List Float}
    (given : definition.sources = numbers.map fun number =>
      VariableSource.base name (Numeric.plainText number)) (index : Index) :
    (calculation.variableStat index definition).stat.total =
      ((numbers.map Numeric.orZero).filter Amount.contributes).foldl (· + ·) 0 := by
  have none : calculation.sourcesOf index (.customVariable definition.id) = [] := by
    rw [sourcesOf, sources, contributions, List.map_eq_nil_iff, List.filter_eq_nil_iff]
    intro compiled member selected
    exact unchanged compiled member (eq_of_beq (Bool.and_eq_true_iff.mp selected).1)
  have amounts : (definition.sources.map fun source =>
      Source.of (source.formula.evaluate index) source.bonusType source.name source.name).map
        (·.amount) = numbers.map Numeric.orZero := by
    rw [given, List.map_map, List.map_map]
    exact List.map_congr_left fun number _ => Formula.resolve_plainText number index
  rw [← amounts]
  change (Breakdown.ofSources calculation.table (_ ++ _)).total = _
  rw [none, List.append_nil]
  refine Breakdown.total_ofSources_of_base adds fun source member => ?_
  rcases List.mem_map.mp member with ⟨_, listed, rfl⟩
  rw [given] at listed
  rcases List.mem_map.mp listed with ⟨_, _, rfl⟩
  rfl

/-- Of positive numbers the finite ones contribute. -/
theorem filter_contributes_orZero {numbers : List Float}
    (positive : ∀ number ∈ numbers, 0 < number) :
    (numbers.map Numeric.orZero).filter Amount.contributes =
      numbers.filter (·.isFinite) := by
  induction numbers with
  | nil => rfl
  | cons number rest inductionHypothesis =>
    have parts := List.forall_mem_cons.mp positive
    rw [List.map_cons, List.filter_cons, List.filter_cons, inductionHypothesis parts.2]
    by_cases finite : number.isFinite = true
    · have contributes : Amount.contributes number = true := by
        change (!(number == 0) && !number.isNaN) = true
        rw [Numeric.beq_zero_of_pos finite parts.1, Numeric.isNaN_of_isFinite finite]
        rfl
      rw [Numeric.orZero, if_pos finite, if_pos contributes, if_pos finite]
    · rw [Numeric.orZero, if_neg finite, if_neg (by decide +kernel), if_neg finite]

/-- Calculated variables are calculated from their declarations. -/
theorem exists_variableStat_of_mem {index : Index} {definitions : List VariableDefinition}
    {calculated : VariableStat}
    (member : calculated ∈ calculation.evaluateInOrder index definitions) :
    ∃ definition ∈ definitions, ∃ reached,
      calculated = calculation.variableStat reached definition := by
  induction definitions generalizing index with
  | nil => exact absurd member List.not_mem_nil
  | cons definition rest inductionHypothesis =>
    rcases List.mem_cons.mp member with rfl | later
    · exact ⟨definition, List.mem_cons_self, index, rfl⟩
    · rcases inductionHypothesis later with ⟨other, listed, reached, same⟩
      exact ⟨other, List.mem_cons_of_mem _ listed, reached, same⟩

end Calculation

end CharacterSheet
