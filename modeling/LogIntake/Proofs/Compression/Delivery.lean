import LogIntake.Compression.Delivery

/-!
# What deliveries deliver

A delivery stands for a sequence of bytes and, if it does not finish, a fault behind
them. Reading takes as many of the bytes as there is room for, whatever the chunks are,
and comes to the fault only when there is room for more than all of them. What has not
been taken is left for later.
-/

namespace LogIntake.Compression.Delivery

/-- All bytes of a delivery. -/
def output : Delivery → List UInt8
  | finished | failed _ => []
  | chunk bytes rest => bytes ++ (rest ()).output

/-- The fault that a delivery ends with, unless it finishes. -/
def fault? : Delivery → Option Fault
  | finished => none
  | failed fault => some fault
  | chunk _ rest => (rest ()).fault?

/-- A delivery of the given bytes that finishes. -/
def Delivers (delivery : Delivery) (bytes : List UInt8) : Prop :=
  delivery.output = bytes ∧ delivery.fault? = none

instance (delivery : Delivery) (bytes : List UInt8) : Decidable (delivery.Delivers bytes) :=
  inferInstanceAs (Decidable (_ ∧ _))

/-! ## What is left -/

/-- Taking the given bytes from the front of the first delivery leaves the second one. -/
inductive Leaves : Delivery → List UInt8 → Delivery → Prop
  | nothing {delivery : Delivery} : Leaves delivery [] delivery
  | part {front back : List UInt8} {rest : Unit → Delivery} :
      Leaves (chunk (front ++ back) rest) front (chunk back rest)
  | whole {bytes taken : List UInt8} {rest : Unit → Delivery} {left : Delivery}
      (leaves : Leaves (rest ()) taken left) : Leaves (chunk bytes rest) (bytes ++ taken) left

/-- No byte is lost, delivered twice or moved. -/
theorem Leaves.output_eq {delivery left : Delivery} {taken : List UInt8}
    (leaves : delivery.Leaves taken left) : delivery.output = taken ++ left.output := by
  induction leaves with
  | nothing => rfl
  | part => simp [output]
  | whole _ ih => simp [output, ih]

/-! ## Reading -/

/-- Chunks do not matter: reading takes as many bytes of the output as there is room for,
leaves the others, and comes to the fault behind them only with room for more than all. -/
theorem takeFrom_spec (delivery : Delivery) (reversed : List UInt8) {room : Nat}
    (positive : 0 < room) :
    let reading := delivery.takeFrom reversed room
    reading.bytes = reversed.reverse ++ delivery.output.take room ∧
      (reading.fault? = if room ≤ delivery.output.length then none else delivery.fault?) ∧
      delivery.Leaves (delivery.output.take room) reading.rest := by
  induction delivery generalizing reversed room with
  | finished =>
      simpa [takeFrom, output, fault?] using Leaves.nothing
  | failed fault =>
      simpa [takeFrom, output, fault?, Nat.not_le.mpr positive] using Leaves.nothing
  | chunk bytes rest ih =>
      simp only [takeFrom, output, fault?, List.length_append]
      by_cases filled : room ≤ bytes.length
      · have within : room ≤ bytes.length + (rest ()).output.length :=
          Nat.le_add_right_of_le filled
        rw [if_pos filled, if_pos within, List.take_append_of_le_length filled]
        refine ⟨?_, rfl, ?_⟩
        · rw [List.reverseAux_eq, List.reverse_append, List.reverse_reverse]
        · have parted : Leaves (chunk (bytes.take room ++ bytes.drop room) rest) _ _ := .part
          rwa [List.take_append_drop] at parted
      · obtain ⟨bytes_eq, fault_eq, leaves⟩ :=
          ih () (bytes.reverseAux reversed) (show 0 < room - bytes.length by omega)
        have room_iff : room - bytes.length ≤ (rest ()).output.length ↔
            room ≤ bytes.length + (rest ()).output.length := by
          omega
        rw [if_neg filled, List.take_append, List.take_of_length_le (Nat.le_of_not_le filled)]
        refine ⟨?_, ?_, .whole leaves⟩
        · rw [bytes_eq, List.reverseAux_eq, List.reverse_append, List.reverse_reverse,
            List.append_assoc]
        · rw [fault_eq]
          simp only [room_iff]

theorem take_spec (delivery : Delivery) {room : Nat} (positive : 0 < room) :
    let reading := delivery.take room
    reading.bytes = delivery.output.take room ∧
      (reading.fault? = if room ≤ delivery.output.length then none else delivery.fault?) ∧
      delivery.Leaves (delivery.output.take room) reading.rest :=
  takeFrom_spec delivery [] positive

end LogIntake.Compression.Delivery
