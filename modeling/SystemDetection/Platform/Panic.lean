import SystemDetection.Platform.Word

namespace systemdetection

/-- How a function may stop early: by returning an error or by a panic. -/
inductive Stop (ε : Type) where
  | error (error : ε)
  | panic (reason : String)
  deriving DecidableEq

/-- The most bytes that one `Vec` may hold. -/
def ISIZE_MAX : Nat := 0x7FFF_FFFF

variable {ε α : Type}

/-- `left + right` on `usize`. -/
def usize_add (left right : Nat) : Except (Stop ε) Nat :=
  match checked_add left right with
  | some sum => .ok sum
  | none => .error (.panic "attempt to add with overflow")

/-- `left - right` on `usize`. -/
def usize_sub (left right : Nat) : Except (Stop ε) Nat :=
  match checked_sub left right with
  | some difference => .ok difference
  | none => .error (.panic "attempt to subtract with overflow")

/-- `vec![0; length]`. -/
def vec_zeroed (length : Nat) : Except (Stop ε) (List UInt8) :=
  if ISIZE_MAX < length then .error (.panic "capacity overflow") else .ok (List.replicate length 0)

/-- `bytes.to_vec()`. -/
def to_vec (bytes : List UInt8) : Except (Stop ε) (List UInt8) :=
  if ISIZE_MAX < bytes.length then .error (.panic "capacity overflow") else .ok bytes

/-- `values[start..stop]`. -/
def slice (values : List α) (start stop : Nat) : Except (Stop ε) (List α) :=
  if stop < start ∨ values.length < stop then
    .error (.panic "slice range out of bounds")
  else
    .ok ((values.take stop).drop start)

/-- `values[start..stop].copy_from_slice(source)`. -/
def copy_from_slice (values : List α) (start stop : Nat) (source : List α) : Except (Stop ε) (List α) :=
  if stop < start ∨ values.length < stop then
    .error (.panic "slice range out of bounds")
  else if source.length ≠ stop - start then
    .error (.panic "copy_from_slice: source slice length does not match destination slice length")
  else
    .ok (values.take start ++ source ++ values.drop stop)

/-- `values[index]`. -/
def element (values : List α) (index : Nat) : Except (Stop ε) α :=
  match values[index]? with
  | some value => .ok value
  | none => .error (.panic "index out of bounds")

theorem usize_add_eq_ok_iff {left right sum : Nat} :
    (usize_add left right : Except (Stop ε) Nat) = .ok sum ↔
      sum = left + right ∧ left + right < USIZE_LIMIT := by
  rw [← checked_add_eq_some_iff]
  unfold usize_add
  cases checked_add left right <;> simp

theorem usize_sub_eq_ok_iff {left right difference : Nat} :
    (usize_sub left right : Except (Stop ε) Nat) = .ok difference ↔ left = right + difference := by
  rw [← checked_sub_eq_some_iff]
  unfold usize_sub
  cases checked_sub left right <;> simp

/-- A check that stops on a bad argument passes exactly what comes behind it otherwise. -/
theorem unless_bad_eq_ok_iff {bad : Prop} [Decidable bad] {stop : Stop ε} {rest : Except (Stop ε) α}
    {value : α} : (if bad then .error stop else rest) = .ok value ↔ rest = .ok value ∧ ¬bad := by
  by_cases hbad : bad
  · simp [hbad]
  · simp [hbad]

theorem vec_zeroed_eq_ok_iff {length : Nat} {bytes : List UInt8} :
    (vec_zeroed length : Except (Stop ε) (List UInt8)) = .ok bytes ↔
      bytes = List.replicate length 0 ∧ length ≤ ISIZE_MAX := by
  rw [vec_zeroed, unless_bad_eq_ok_iff, Except.ok.injEq, Nat.not_lt, eq_comm]

theorem to_vec_eq_ok_iff {bytes copied : List UInt8} :
    (to_vec bytes : Except (Stop ε) (List UInt8)) = .ok copied ↔ copied = bytes ∧ bytes.length ≤ ISIZE_MAX := by
  rw [to_vec, unless_bad_eq_ok_iff, Except.ok.injEq, Nat.not_lt, eq_comm]

theorem slice_eq_ok_iff {values part : List α} {start stop : Nat} :
    (slice values start stop : Except (Stop ε) (List α)) = .ok part ↔
      part = (values.take stop).drop start ∧ start ≤ stop ∧ stop ≤ values.length := by
  rw [slice, unless_bad_eq_ok_iff, Except.ok.injEq, not_or, Nat.not_lt, Nat.not_lt, eq_comm]

/-- A slice is overwritten exactly when it lies inside and has the length of the source. -/
theorem copy_from_slice_eq_ok_iff {values source result : List α} {start stop : Nat} :
    (copy_from_slice values start stop source : Except (Stop ε) (List α)) = .ok result ↔
      result = values.take start ++ source ++ values.drop stop ∧ start ≤ stop ∧ stop ≤ values.length ∧
        source.length = stop - start := by
  rw [copy_from_slice, unless_bad_eq_ok_iff, unless_bad_eq_ok_iff, Except.ok.injEq, not_or, Nat.not_lt,
    Nat.not_lt, not_not, eq_comm]
  constructor
  · rintro ⟨⟨hresult, hlength⟩, hstart, hstop⟩
    exact ⟨hresult, hstart, hstop, hlength⟩
  · rintro ⟨hresult, hstart, hstop, hlength⟩
    exact ⟨⟨hresult, hlength⟩, hstart, hstop⟩

end systemdetection
