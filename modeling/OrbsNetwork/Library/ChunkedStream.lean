import Mathlib

/-! A stream read in chunks, the way a socket hands over what has arrived: the chunking is
arbitrary, while the stream behind it is the chunks one after the other. -/

namespace ChunkedStream

/-- A stream in the chunks it arrives in, and the error that ends it, with the last chunk when
`endsWithLast` and after it otherwise. -/
structure Source (σ ε : Type) where
  chunks : List (List σ)
  ending : ε
  endsWithLast : Bool

variable {σ ε : Type}

/-- What is left to read. -/
def Source.rest (src : Source σ ε) : List σ :=
  src.chunks.flatten

/-- A read into a buffer of `size`: the front of the next chunk, and the error that ends the
stream when the read takes its last element or there is nothing left. -/
def Source.read (src : Source σ ε) (size : Nat) : (List σ × Option ε) × Source σ ε :=
  match src.chunks with
  | [] => (([], some src.ending), src)
  | chunk :: later =>
    if size < chunk.length then ((chunk.take size, none), { src with chunks := chunk.drop size :: later })
    else ((chunk, if later.isEmpty && src.endsWithLast then some src.ending else none), { src with chunks := later })

section Read

variable (ending : ε) (endsWithLast : Bool) (size : Nat)

@[simp] theorem Source.rest_mk (chunks : List (List σ)) :
    (Source.mk chunks ending endsWithLast).rest = chunks.flatten := rfl

theorem Source.read_nil :
    (Source.mk ([] : List (List σ)) ending endsWithLast).read size = (([], some ending), ⟨[], ending, endsWithLast⟩) :=
  rfl

theorem Source.read_of_lt {chunk : List σ} (later : List (List σ)) (fits : size < chunk.length) :
    (Source.mk (chunk :: later) ending endsWithLast).read size =
      ((chunk.take size, none), ⟨chunk.drop size :: later, ending, endsWithLast⟩) := by
  simp [Source.read, fits]

theorem Source.read_of_le {chunk : List σ} (later : List (List σ)) (whole : chunk.length ≤ size) :
    (Source.mk (chunk :: later) ending endsWithLast).read size =
      ((chunk, if later.isEmpty && endsWithLast then some ending else none), ⟨later, ending, endsWithLast⟩) := by
  simp [Source.read, Nat.not_lt.mpr whole]

variable (src : Source σ ε)

/-- A read takes what it returns off the front of the stream. -/
theorem Source.read_rest : (src.read size).1.1 ++ (src.read size).2.rest = src.rest := by
  rcases src with ⟨_ | ⟨chunk, later⟩, ending, endsWithLast⟩
  · rfl
  · by_cases fits : size < chunk.length
    · simp [Source.read_of_lt _ _ _ later fits, ← List.append_assoc]
    · simp [Source.read_of_le _ _ _ later (Nat.le_of_not_lt fits)]

theorem Source.length_read_le : (src.read size).1.1.length ≤ size := by
  rcases src with ⟨_ | ⟨chunk, later⟩, ending, endsWithLast⟩
  · simp [Source.read_nil]
  · by_cases fits : size < chunk.length
    · simp [Source.read_of_lt _ _ _ later fits]
    · simpa [Source.read_of_le _ _ _ later (Nat.le_of_not_lt fits)] using Nat.le_of_not_lt fits

/-- A read that fills less than its buffer and reports no error has taken the whole next chunk. -/
theorem Source.read_short (short : (src.read size).1.1.length < size) (quiet : (src.read size).1.2 = none) :
    (src.read size).2.chunks.length < src.chunks.length := by
  rcases src with ⟨_ | ⟨chunk, later⟩, ending, endsWithLast⟩
  · simp [Source.read_nil] at quiet
  · by_cases fits : size < chunk.length
    · rw [Source.read_of_lt _ _ _ later fits] at short
      simp only [List.length_take] at short
      omega
    · simp [Source.read_of_le _ _ _ later (Nat.le_of_not_lt fits)]

/-- The stream's error comes only with the read that leaves nothing behind. -/
theorem Source.rest_read_of_error {e : ε} (failed : (src.read size).1.2 = some e) :
    (src.read size).2.rest = [] := by
  rcases src with ⟨_ | ⟨chunk, later⟩, ending, endsWithLast⟩
  · rfl
  · by_cases fits : size < chunk.length
    · simp [Source.read_of_lt _ _ _ later fits] at failed
    · rw [Source.read_of_le _ _ _ later (Nat.le_of_not_lt fits)] at failed ⊢
      cases later with
      | nil => rfl
      | cons next later => simp at failed

/-- A read into a buffer no longer than `s`, from a stream that starts with `s`, takes a prefix
of `s` and leaves the rest of `s` in front of what follows it. -/
theorem Source.read_prefix {src : Source σ ε} {size : Nat} {read : List σ} {err : Option ε} {src' : Source σ ε}
    (reading : src.read size = ((read, err), src')) {s later : List σ} (stream : src.rest = s ++ later)
    (within : size ≤ s.length) : ∃ s', s = read ++ s' ∧ src'.rest = s' ++ later := by
  have taken := src.read_rest size
  have short := src.length_read_le size
  rw [reading, stream] at taken
  rw [reading] at short
  dsimp only at short
  rcases List.append_eq_append_iff.mp taken with ⟨s', front, back⟩ | ⟨extra, front, back⟩
  · exact ⟨s', front, back⟩
  -- the read cannot run past `s`, so it took all of it and nothing more
  · have none : extra = [] := by
      have := congrArg List.length front
      simp only [List.length_append] at this
      exact List.eq_nil_of_length_eq_zero (by omega)
    subst none
    exact ⟨[], by simpa using front.symm, by simpa using back.symm⟩

end Read

end ChunkedStream
