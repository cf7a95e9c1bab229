import FormattedOutput.Piece

/-!
# Rows with a capacity

A row is a number of bytes that cannot grow beyond its capacity. An operation has no result where it
would need more room than there is, or a place that the row does not have.
-/

namespace FormattedOutput

/-- Bytes, at most `capacity` of them. -/
structure Row (capacity : Nat) where
  bytes : Bytes
  fits : bytes.length ≤ capacity

namespace Row

variable {capacity : Nat}

/-- The row without bytes. -/
def empty : Row capacity := ⟨[], Nat.zero_le _⟩

/-- The row with more bytes at its end, which it has room for. -/
def append (r : Row capacity) (bytes : Bytes) (h : r.bytes.length + bytes.length ≤ capacity) :
    Row capacity :=
  ⟨r.bytes ++ bytes, by rwa [List.length_append]⟩

/-- Adds one byte at the end, if there is room for it. -/
def push? (r : Row capacity) (byte : UInt8) : Option (Row capacity) :=
  if h : r.bytes.length < capacity then some (r.append [byte] h) else none

/-- Adds bytes at the end, one after the other. -/
def append? (r : Row capacity) : Bytes → Option (Row capacity)
  | [] => some r
  | byte :: rest => do (← r.push? byte).append? rest

/-- Adds one byte at a place, if the row reaches that far and has room for the byte. -/
def insert? (r : Row capacity) (place : Nat) (byte : UInt8) : Option (Row capacity) :=
  if h : place ≤ r.bytes.length ∧ r.bytes.length < capacity then
    some ⟨r.bytes.take place ++ byte :: r.bytes.drop place, by
      rw [List.length_append, List.length_cons, List.length_take, List.length_drop]
      omega⟩
  else none

/-- The row without its last byte, if it has one. -/
def dropLast (r : Row capacity) : Row capacity :=
  ⟨r.bytes.dropLast, by
    rw [List.length_dropLast]
    exact Nat.le_trans (Nat.sub_le _ _) r.fits⟩

/-- The first bytes of the row and the row without them, if it has so many. -/
def split? (r : Row capacity) (count : Nat) : Option (Bytes × Row capacity) :=
  if count ≤ r.bytes.length then
    some (r.bytes.take count, ⟨r.bytes.drop count, by
      rw [List.length_drop]
      exact Nat.le_trans (Nat.sub_le _ _) r.fits⟩)
  else none

/-! ## What the operations do -/

@[simp] theorem bytes_empty : (empty : Row capacity).bytes = [] := rfl

@[simp] theorem bytes_dropLast (r : Row capacity) : r.dropLast.bytes = r.bytes.dropLast := rfl

theorem append?_singleton (r : Row capacity) (byte : UInt8) : r.append? [byte] = r.push? byte := by
  cases h : r.push? byte <;> simp [append?, h]

theorem append?_append (r : Row capacity) (front back : Bytes) :
    r.append? (front ++ back) = (r.append? front).bind fun s => s.append? back := by
  induction front generalizing r with
  | nil => rfl
  | cons byte rest ih =>
    cases h : r.push? byte with
    | none => simp [append?, h]
    | some s => simpa [append?, h] using ih s

/-- Bytes can be added just if there is room for all of them. -/
theorem append?_eq (r : Row capacity) (bytes : Bytes) :
    r.append? bytes =
      if h : r.bytes.length + bytes.length ≤ capacity then some (r.append bytes h) else none := by
  induction bytes generalizing r with
  | nil =>
    rw [dif_pos (by simpa using r.fits)]
    simp [append?, append]
  | cons byte rest ih =>
    rw [append?, push?]
    by_cases hroom : r.bytes.length < capacity
    · rw [dif_pos hroom, Option.bind_eq_bind, Option.bind_some, ih]
      simp only [append, List.length_append, List.length_cons, List.length_nil, Nat.zero_add,
        List.append_assoc, List.cons_append, List.nil_append, Nat.add_assoc, Nat.add_comm 1]
    · rw [dif_neg hroom, dif_neg (by rw [List.length_cons]; omega)]
      rfl

/-- A step adds these bytes to every row that has room for them, and has no result for the
others. -/
def Adds (capacity : Nat) (step : Row capacity → Option (Row capacity)) (bytes : Bytes) : Prop :=
  ∀ r, (step r).map Row.bytes =
    if r.bytes.length + bytes.length ≤ capacity then some (r.bytes ++ bytes) else none

theorem adds_of_eq {step : Row capacity → Option (Row capacity)} {bytes : Bytes}
    (h : ∀ r, step r = r.append? bytes) : Adds capacity step bytes := by
  intro r
  rw [h, append?_eq]
  split <;> rfl

theorem Adds.exists_eq {step : Row capacity → Option (Row capacity)} {bytes : Bytes}
    (h : Adds capacity step bytes) {r : Row capacity}
    (hle : r.bytes.length + bytes.length ≤ capacity) :
    ∃ s, step r = some s ∧ s.bytes = r.bytes ++ bytes := by
  apply Option.map_eq_some_iff.mp
  rw [h, if_pos hle]

theorem Adds.exists_empty {step : Row capacity → Option (Row capacity)} {bytes : Bytes}
    (h : Adds capacity step bytes) (hle : bytes.length ≤ capacity) :
    ∃ s, step empty = some s ∧ s.bytes = bytes :=
  h.exists_eq (show 0 + bytes.length ≤ capacity by rwa [Nat.zero_add])

theorem exists_append?_empty {bytes : Bytes} (h : bytes.length ≤ capacity) :
    ∃ s : Row capacity, empty.append? bytes = some s ∧ s.bytes = bytes :=
  Adds.exists_empty (adds_of_eq fun _ => rfl) h

theorem exists_append?_eq {r : Row capacity} {bytes : Bytes}
    (h : r.bytes.length + bytes.length ≤ capacity) :
    ∃ s, r.append? bytes = some s ∧ s.bytes = r.bytes ++ bytes :=
  Adds.exists_eq (adds_of_eq fun _ => rfl) h

theorem exists_insert?_eq {r : Row capacity} {place : Nat} (hplace : place ≤ r.bytes.length)
    (hroom : r.bytes.length < capacity) (byte : UInt8) :
    ∃ s, r.insert? place byte = some s ∧
      s.bytes = r.bytes.take place ++ byte :: r.bytes.drop place :=
  ⟨_, dif_pos ⟨hplace, hroom⟩, rfl⟩

theorem exists_split?_eq {r : Row capacity} {count : Nat} (h : count ≤ r.bytes.length) :
    ∃ rest : Row capacity, r.split? count = some (r.bytes.take count, rest) ∧
      rest.bytes = r.bytes.drop count :=
  ⟨_, if_pos h, rfl⟩

end Row

end FormattedOutput
