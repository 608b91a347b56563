import BooleanSearch.Proofs.Yaml.Entries
import BooleanSearch.Yaml.Node

/-!
# Mappings of scalars

A document that holds a mapping of scalars, each entry in a line of its own, is read as that
mapping.
-/

namespace BooleanSearch.Yaml

/-- The nodes of an entry. -/
def ScalarEntry.nodes (entry : ScalarEntry) : Node × Node :=
  (.scalar none .plain entry.key, .scalar none entry.style entry.text)

namespace Node

variable {handles : List (Text × Text)} {steps : Nat} {place : Place} {style : Style} {text : Text}
  {tokens ends : List Token} {names : List (Text × Nat)}

theorem read?_scalar :
    read? handles (steps + 2) place ⟨.scalar style text :: tokens, names⟩ =
      some (.scalar none style text, ⟨tokens, names⟩) := by
  simp [read?, properties, content?, Source.next]

theorem optional?_scalar :
    optional? handles (steps + 3) place entryEnds ⟨.scalar style text :: tokens, names⟩ =
      some (.scalar none style text, ⟨tokens, names⟩) := by
  have hends : entryEnds.contains (.scalar style text) = false := by simp [entryEnds]
  rw [optional?]
  simp only [Source.startsWith, hends]
  exact read?_scalar

theorem value?_scalar :
    value? handles (steps + 4) place entryEnds ⟨.value :: .scalar style text :: tokens, names⟩ =
      some (.scalar none style text, ⟨tokens, names⟩) := by
  rw [value?]
  exact optional?_scalar

/-- The entries of a mapping are read in turn. -/
theorem entries?_words (entries : List ScalarEntry) (hsteps : entries.length + 5 ≤ steps) :
    entries? handles steps ⟨entries.flatMap ScalarEntry.words ++ .blockEnd :: tokens, names⟩ =
      some (entries.map ScalarEntry.nodes, ⟨tokens, names⟩) := by
  induction entries generalizing steps with
  | nil =>
    obtain ⟨steps, rfl⟩ : ∃ n, steps = n + 1 := ⟨steps - 1, by omega⟩
    simp [entries?, Source.next]
  | cons entry entries ih =>
    rw [List.length_cons] at hsteps
    obtain ⟨steps, rfl⟩ : ∃ n, steps = n + 5 := ⟨steps - 5, by omega⟩
    have hrest : entries? handles (steps + 4)
        ⟨entries.flatMap ScalarEntry.words ++ .blockEnd :: tokens, names⟩ = _ := ih (by omega)
    have hwords : (entry :: entries).flatMap ScalarEntry.words ++ .blockEnd :: tokens =
        .key :: .scalar .plain entry.key :: .value :: .scalar entry.style entry.text ::
          (entries.flatMap ScalarEntry.words ++ .blockEnd :: tokens) := by simp [ScalarEntry.words]
    rw [hwords, entries?]
    simp [Source.next, optional?_scalar, value?_scalar, hrest, ScalarEntry.nodes]

theorem read?_mapping (entries : List ScalarEntry) (hsteps : entries.length + 5 ≤ steps) :
    read? handles (steps + 2) .block
      ⟨.blockMapping :: (entries.flatMap ScalarEntry.words ++ .blockEnd :: tokens), []⟩ =
      some (.mapping (entries.map ScalarEntry.nodes), ⟨tokens, []⟩) := by
  simp [read?, properties, content?, Source.next, entries?_words entries hsteps]

end Node

theorem length_le_length_words (entries : List ScalarEntry) :
    entries.length ≤ (entries.flatMap ScalarEntry.words).length := by
  induction entries with
  | nil => simp
  | cons entry entries ih =>
    rw [List.flatMap_cons, List.length_append, List.length_cons]
    simp only [ScalarEntry.words, List.length_cons]
    omega

/-- A text of one line for each entry is read as the mapping of these entries. -/
theorem document?_lines {entries : List ScalarEntry} (hne : entries ≠ []) :
    document? (entries.flatMap ScalarEntry.line) =
      some (some (.mapping (entries.map ScalarEntry.nodes))) := by
  have hlength := length_le_length_words entries
  obtain ⟨steps, hsteps, hle⟩ : ∃ steps,
      nodeSteps (.blockMapping :: (entries.flatMap ScalarEntry.words ++ [.blockEnd])) = steps + 2 ∧
        entries.length + 5 ≤ steps := by
    refine ⟨4 * (entries.flatMap ScalarEntry.words).length + 10, ?_, by omega⟩
    simp [nodeSteps]
    omega
  simp [document?, tokens?_lines hne, documentNode?, directives?, hsteps,
    Node.read?_mapping entries hle]

end BooleanSearch.Yaml
