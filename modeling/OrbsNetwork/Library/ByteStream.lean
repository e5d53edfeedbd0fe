import Mathlib

namespace ByteStream

/-- How a read from a stream fails: the stream ended before the read began (Go's `io.EOF`),
it ended inside the read (`io.ErrUnexpectedEOF`), or the decoder refused what it read. -/
inductive ReadError (ε : Type) where
  | eof
  | unexpectedEof
  | other (e : ε)
  deriving DecidableEq, Repr

/-- The errors of a stream that ended too early. -/
def ReadError.IsEof {ε : Type} : ReadError ε → Prop
  | eof | unexpectedEof => True
  | other _ => False

/-- A decoder reading a stream of `σ` from the front. -/
abbrev Reader (σ ε α : Type) := StateT (List σ) (Except (ReadError ε)) α

section Reader

variable {σ ε α β : Type}

/-- `io.ReadFull`: exactly `n` elements, `eof` when the stream is already empty and
`unexpectedEof` when it ends inside the read. -/
def readFull (n : Nat) : Reader σ ε (List σ) := fun s =>
  if n ≤ s.length then .ok (s.take n, s.drop n)
  else if s.isEmpty then .error .eof
  else .error .unexpectedEof

/-- `io.TeeReader`: the result of `d` together with everything it read. -/
def tee (d : Reader σ ε α) : Reader σ ε (α × List σ) := fun s =>
  match d s with
  | .ok (a, rest) => .ok ((a, s.take (s.length - rest.length)), rest)
  | .error e => .error e

/-- `d` reads exactly `s` and returns `a`, whatever follows `s` in the stream; on every strict
prefix of `s` it stops with an end-of-stream error. -/
structure Decodes (d : Reader σ ε α) (s : List σ) (a : α) : Prop where
  exact : ∀ rest, d.run (s ++ rest) = .ok (a, rest)
  truncated : ∀ p, p <+: s → p ≠ s → ∃ e, e.IsEof ∧ d.run p = .error e

theorem Decodes.run_eq {d : Reader σ ε α} {s : List σ} {a : α} (decodes : Decodes d s a) :
    d.run s = .ok (a, []) := by
  simpa using decodes.exact []

/-- A strict prefix of `s ++ t` is a strict prefix of `s`, or `s` followed by a strict prefix
of `t`. -/
theorem strict_prefix_append_cases {p s t : List σ} (prefixed : p <+: s ++ t) (strict : p ≠ s ++ t) :
    (p <+: s ∧ p ≠ s) ∨ ∃ q, p = s ++ q ∧ q <+: t ∧ q ≠ t := by
  rcases List.prefix_or_prefix_of_prefix prefixed (List.prefix_append s t) with short | ⟨q, rfl⟩
  · by_cases whole : p = s
    · subst whole
      exact .inr ⟨[], (List.append_nil p).symm, List.nil_prefix, fun empty => strict (by simp [← empty])⟩
    · exact .inl ⟨short, whole⟩
  · exact .inr ⟨q, rfl, (List.prefix_append_right_inj s).mp prefixed, fun same => strict (by rw [same])⟩

theorem decodes_pure (a : α) : Decodes (Pure.pure a : Reader σ ε α) [] a where
  exact _ := rfl
  truncated _ prefixed strict := absurd (List.prefix_nil.mp prefixed) strict

theorem Decodes.bind {d : Reader σ ε α} {f : α → Reader σ ε β} {s₁ s₂ : List σ} {a : α} {b : β}
    (first : Decodes d s₁ a) (second : Decodes (f a) s₂ b) : Decodes (d >>= f) (s₁ ++ s₂) b where
  exact rest := by
    rw [StateT.run_bind, List.append_assoc, first.exact]
    exact second.exact rest
  truncated p prefixed strict := by
    rcases strict_prefix_append_cases prefixed strict with ⟨short, inside⟩ | ⟨q, rfl, long, inside⟩
    · obtain ⟨e, eof, fails⟩ := first.truncated p short inside
      exact ⟨e, eof, by rw [StateT.run_bind, fails]; rfl⟩
    · obtain ⟨e, eof, fails⟩ := second.truncated q long inside
      exact ⟨e, eof, by rw [StateT.run_bind, first.exact]; exact fails⟩

theorem decodes_pure_of_eq {σ ε α : Type} {a b : α} (same : a = b) : Decodes (pure a : Reader σ ε α) [] b :=
  same ▸ decodes_pure a

/-- A bind whose second step reads nothing. -/
theorem Decodes.bind_last {d : Reader σ ε α} {f : α → Reader σ ε β} {s : List σ} {a : α} {b : β}
    (first : Decodes d s a) (second : Decodes (f a) [] b) : Decodes (d >>= f) s b := by
  simpa using first.bind second

theorem decodes_readFull {n : Nat} (s : List σ) (length : s.length = n) :
    Decodes (readFull n : Reader σ ε (List σ)) s s where
  exact rest := by simp [ByteStream.readFull, StateT.run, ← length]
  truncated p prefixed strict := by
    subst length
    have short : p.length < s.length :=
      lt_of_le_of_ne prefixed.length_le fun same => strict (prefixed.eq_of_length same)
    by_cases empty : p = []
    · have nonempty : s ≠ [] := List.ne_nil_of_length_pos (by omega)
      exact ⟨.eof, trivial, by simp [ByteStream.readFull, StateT.run, empty, nonempty]⟩
    · exact ⟨.unexpectedEof, trivial, by simp [ByteStream.readFull, StateT.run, empty, Nat.not_le.mpr short]⟩

theorem decodes_tee {d : Reader σ ε α} {s : List σ} {a : α} (decodes : Decodes d s a) :
    Decodes (tee d) s (a, s) where
  exact rest := by
    have run := decodes.exact rest
    simp only [StateT.run] at run ⊢
    simp [ByteStream.tee, run]
  truncated p prefixed strict := by
    obtain ⟨e, eof, fails⟩ := decodes.truncated p prefixed strict
    simp only [StateT.run] at fails ⊢
    exact ⟨e, eof, by simp [ByteStream.tee, fails]⟩

end Reader

section LittleEndian

/-- The `w` bytes of `n`, least significant first; bits from `8 * w` on are dropped. -/
def toLE : Nat → Nat → List UInt8
  | 0, _ => []
  | w + 1, n => UInt8.ofNat (n % 256) :: toLE w (n / 256)

/-- The number whose bytes, least significant first, are `bytes`. -/
def ofLE (bytes : List UInt8) : Nat :=
  Nat.ofDigits 256 (bytes.map UInt8.toNat)

@[simp] theorem length_toLE (w n : Nat) : (toLE w n).length = w := by
  induction w generalizing n with
  | zero => rfl
  | succ w ih => simp [toLE, ih]

theorem ofLE_toLE (w n : Nat) : ofLE (toLE w n) = n % 256 ^ w := by
  induction w generalizing n with
  | zero => simp [toLE, ofLE, Nat.mod_one]
  | succ w ih =>
    have low : (UInt8.ofNat (n % 256)).toNat = n % 256 := by simp
    calc ofLE (toLE (w + 1) n) = n % 256 + 256 * ofLE (toLE w (n / 256)) := by
          simp only [toLE, ofLE, List.map_cons, Nat.ofDigits_cons, low]
      _ = n % 256 + 256 * (n / 256 % 256 ^ w) := by rw [ih]
      _ = n % 256 ^ (w + 1) := by rw [pow_succ', Nat.mod_mul]

theorem ofLE_toLE_of_lt {w n : Nat} (fits : n < 256 ^ w) : ofLE (toLE w n) = n := by
  rw [ofLE_toLE, Nat.mod_eq_of_lt fits]

/-- Go's `binary.Read` of a little-endian integer of `w` bytes. -/
def readLE {ε : Type} (w : Nat) : Reader UInt8 ε Nat := do
  let bytes ← readFull w
  return ofLE bytes

theorem decodes_readLE {ε : Type} {w n : Nat} (fits : n < 256 ^ w) :
    Decodes (readLE w : Reader UInt8 ε Nat) (toLE w n) n := by
  have read : Decodes (readLE w : Reader UInt8 ε Nat) (toLE w n ++ []) (ofLE (toLE w n)) :=
    (decodes_readFull (toLE w n) (length_toLE w n)).bind (decodes_pure _)
  rwa [List.append_nil, ofLE_toLE_of_lt fits] at read

end LittleEndian

end ByteStream
