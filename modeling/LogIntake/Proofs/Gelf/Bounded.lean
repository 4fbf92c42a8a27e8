import LogIntake.Proofs.Compression.Delivery
import LogIntake.Proofs.Gelf.Decoding

/-!
# Bounded reading

What a decompressor delivers is read whole or not at all. An output of at most as many
bytes as the limit is taken when it finishes and is an error when it fails, and a greater
one exceeds the limit, whatever its chunks are. To tell these apart no more than one byte
beyond the limit has to be read.

Counts of bytes have 64 bits. The greatest of them leaves no room for a byte beyond it, so
an output of just as many bytes fills the room, and a fault behind it is not met.
-/

namespace LogIntake.Gelf

open Compression (Delivery Fault)

namespace Payload

variable {framing : Framing} {limit : Nat} {delivery : Delivery}

theorem room_pos (limit : Nat) : 0 < room limit := by
  have wide : 1 < Nat.pow 2 64 := by decide
  unfold room
  omega

/-- Where the limit can be exceeded at all, there is room for one byte beyond it. -/
theorem room_eq_of_lt {size : Nat} (counted : size < Nat.pow 2 64) (beyond : limit < size) :
    room limit = limit + 1 := by
  unfold room
  omega

/-- There is room for every size within the limit, and only the greatest fills it. -/
theorem room_of_le {size : Nat} (counted : size < Nat.pow 2 64) (within : size ≤ limit) :
    size ≤ room limit ∧ (room limit ≤ size ↔ ¬ size + 1 < Nat.pow 2 64) := by
  unfold room
  omega

/-- Reading within a limit depends on the output and the fault behind it alone. -/
theorem bounded_eq (framing : Framing) (limit : Nat)
    (counted : delivery.output.length < Nat.pow 2 64) :
    (bounded framing limit delivery).1 =
      if limit < delivery.output.length then .error (.sizeLimitExceeded limit)
      else
        match delivery.fault? with
        | none => .ok delivery.output
        | some fault =>
          if delivery.output.length + 1 < Nat.pow 2 64 then .error (.decompression framing fault)
          else .ok delivery.output := by
  obtain ⟨bytes_eq, fault_eq, -⟩ := delivery.take_spec (room_pos limit)
  rw [bounded, ofReading, bytes_eq, fault_eq]
  by_cases beyond : limit < delivery.output.length
  · have filled : limit + 1 ≤ delivery.output.length := beyond
    rw [room_eq_of_lt counted beyond, List.length_take_of_le filled, if_pos beyond]
    simp only [if_pos filled, if_pos (Nat.lt_succ_self limit)]
  · obtain ⟨whole, filled_iff⟩ := room_of_le counted (Nat.le_of_not_lt beyond)
    simp only [List.take_of_length_le whole, if_neg beyond]
    by_cases room_left : delivery.output.length + 1 < Nat.pow 2 64
    · rw [if_neg (mt filled_iff.mp (not_not_intro room_left))]
      cases delivery.fault? with
      | none => rfl
      | some fault => simp only [if_pos room_left]
    · -- the output has as many bytes as can be counted
      simp only [if_pos (filled_iff.mpr room_left), if_neg room_left]
      cases delivery.fault? <;> rfl

/-- Only a whole output is read, and its end has been met unless it has as many bytes as can
be counted. -/
theorem of_bounded_eq_ok (counted : delivery.output.length < Nat.pow 2 64) {bytes : List UInt8}
    (read : (bounded framing limit delivery).1 = .ok bytes) :
    bytes = delivery.output ∧ delivery.output.length ≤ limit ∧
      (delivery.fault? = none ∨ delivery.output.length + 1 = Nat.pow 2 64) := by
  rw [bounded_eq framing limit counted] at read
  split at read
  · contradiction
  · rename_i within
    have within := Nat.le_of_not_lt within
    split at read
    · rename_i finished
      exact ⟨(Except.ok.inj read).symm, within, .inl finished⟩
    · split at read
      · contradiction
      · have uncounted : delivery.output.length + 1 = Nat.pow 2 64 := by omega
        exact ⟨(Except.ok.inj read).symm, within, .inr uncounted⟩

/-- Up to one byte beyond the limit is taken of a delivery, and the others are left. -/
theorem leaves_bounded (framing : Framing) (limit : Nat)
    (counted : delivery.output.length < Nat.pow 2 64) :
    delivery.Leaves (delivery.output.take (limit + 1)) (bounded framing limit delivery).2 := by
  obtain ⟨-, -, leaves⟩ := delivery.take_spec (room_pos limit)
  have taken_eq : delivery.output.take (room limit) = delivery.output.take (limit + 1) := by
    by_cases beyond : limit < delivery.output.length
    · rw [room_eq_of_lt counted beyond]
    · have within := Nat.le_of_not_lt beyond
      rw [List.take_of_length_le (room_of_le counted within).1,
        List.take_of_length_le (Nat.le_succ_of_le within)]
  rwa [taken_eq] at leaves

/-- The delivery of a compressed payload, with its framing. -/
def delivery? (payload : List UInt8) : Option (Framing × Delivery) :=
  match Framing.ofPayload? payload with
  | some .gzip => some (.gzip, Compression.Gzip.deliver payload)
  | some .zlib => some (.zlib, Compression.Zlib.deliver payload)
  | _ => none

/-- The text of a compressed payload is what is read of its delivery. -/
theorem value_toText_of_delivery? {payload : List UInt8} (limit : Nat) (charset : Charset)
    (compressed : delivery? payload = some (framing, delivery)) :
    (toText payload limit charset).value =
      (bounded framing limit delivery).1.map charset.decode := by
  unfold delivery? at compressed
  split at compressed
  · rename_i framing_eq
    cases compressed
    simp [toText, Payload.framing, framing_eq, inflated]
  · rename_i framing_eq
    cases compressed
    simp [toText, Payload.framing, framing_eq, inflated]
  · contradiction

/-- An output of more bytes than the limit exceeds it. An output within the limit is read
whole if the delivery finishes, and is an error of its framing if it fails. Whatever is
read is thus the whole output, up to its confirmed end, and nothing of it is left. In any
case no more than one byte beyond the limit is taken from the delivery. The text of a
compressed payload is what the whole output of its decompressor holds in the charset. Only
an output of as many bytes as can be counted at all leaves no room to meet the fault behind
it. -/
theorem bounded_reads_all_or_nothing (framing : Framing) (limit : Nat) (delivery : Delivery)
    (counted : delivery.output.length < Nat.pow 2 64) :
    let size := delivery.output.length
    let result := (bounded framing limit delivery).1
    let left := (bounded framing limit delivery).2
    let taken := delivery.output.take (limit + 1)
    (limit < size → result = .error (.sizeLimitExceeded limit)) ∧
      (size ≤ limit → delivery.fault? = none → result = .ok delivery.output) ∧
      (∀ fault, size ≤ limit → delivery.fault? = some fault →
        (size + 1 < Nat.pow 2 64 → result = .error (.decompression framing fault)) ∧
        (size + 1 = Nat.pow 2 64 → result = .ok delivery.output)) ∧
      (∀ bytes, result = .ok bytes → bytes = delivery.output ∧ left.output = [] ∧
        size ≤ limit ∧ (delivery.fault? = none ∨ size + 1 = Nat.pow 2 64)) ∧
      (delivery.Leaves taken left ∧ taken.length ≤ limit + 1) ∧
      ∀ payload charset, delivery? payload = some (framing, delivery) →
        (∃ error, (toText payload limit charset).value = .error error) ∨
          (toText payload limit charset).value = .ok (charset.decode delivery.output) ∧
            (delivery.fault? = none ∨ size + 1 = Nat.pow 2 64) := by
  intro size result left taken
  have result_eq : result = _ := bounded_eq framing limit counted
  have leaves : delivery.Leaves taken left := leaves_bounded framing limit counted
  refine ⟨?exceeded, ?finished, ?failed, ?whole, ⟨leaves, List.length_take_le _ _⟩, ?text⟩
  case exceeded =>
    exact fun beyond => result_eq.trans (if_pos beyond)
  case finished =>
    intro within finished
    rw [result_eq, if_neg (Nat.not_lt.mpr within), finished]
  case failed =>
    intro fault within failed
    rw [failed, if_neg (Nat.not_lt.mpr within)] at result_eq
    exact ⟨fun room => result_eq.trans (if_pos room),
      fun uncounted => result_eq.trans (if_neg (Nat.not_lt.mpr (Nat.le_of_eq uncounted.symm)))⟩
  case whole =>
    intro bytes read
    obtain ⟨bytes_eq, within, confirmed⟩ := of_bounded_eq_ok counted read
    refine ⟨bytes_eq, ?_, within, confirmed⟩
    -- the whole output has been taken
    have all : taken = delivery.output := List.take_of_length_le (Nat.le_succ_of_le within)
    rw [all] at leaves
    exact List.self_eq_append_right.mp leaves.output_eq
  case text =>
    intro payload charset compressed
    rw [value_toText_of_delivery? limit charset compressed]
    match read : (bounded framing limit delivery).1 with
    | .error error => exact .inl ⟨error, rfl⟩
    | .ok _ =>
      obtain ⟨rfl, -, confirmed⟩ := of_bounded_eq_ok counted read
      exact .inr ⟨rfl, confirmed⟩

/-- Three bytes in two chunks. -/
def threeBytes (last : Delivery) : Delivery :=
  .chunk [1, 2] fun _ => .chunk [3] fun _ => last

/-- At a limit of three the end decides. A limit of one is exceeded either way, and only two
bytes are taken to find that out. -/
theorem bounded_threeBytes :
    (bounded .gzip 3 (threeBytes .finished)).1 = .ok [1, 2, 3] ∧
      (bounded .gzip 3 (threeBytes (.failed .checksumMismatch))).1 =
        .error (.decompression .gzip .checksumMismatch) ∧
      (bounded .gzip 1 (threeBytes .finished)).1 = .error (.sizeLimitExceeded 1) ∧
      (bounded .gzip 1 (threeBytes (.failed .checksumMismatch))).1 =
        .error (.sizeLimitExceeded 1) ∧
      (threeBytes .finished).Leaves [1, 2] (bounded .gzip 1 (threeBytes .finished)).2 := by
  have counted : (threeBytes .finished).output.length < Nat.pow 2 64 := by decide
  have countedFailed :
      (threeBytes (.failed .checksumMismatch)).output.length < Nat.pow 2 64 := by decide
  obtain ⟨-, three, -⟩ := bounded_reads_all_or_nothing .gzip 3 (threeBytes .finished) counted
  obtain ⟨-, -, threeFailed, -⟩ :=
    bounded_reads_all_or_nothing .gzip 3 (threeBytes (.failed .checksumMismatch)) countedFailed
  obtain ⟨one, -, -, -, ⟨leaves, -⟩, -⟩ :=
    bounded_reads_all_or_nothing .gzip 1 (threeBytes .finished) counted
  obtain ⟨oneFailed, -⟩ :=
    bounded_reads_all_or_nothing .gzip 1 (threeBytes (.failed .checksumMismatch)) countedFailed
  exact ⟨three (by decide) rfl, (threeFailed _ (by decide) rfl).1 (by decide), one (by decide),
    oneFailed (by decide), leaves⟩

/-! ## Ends that are not confirmed -/

/-- The given number of zeros and a fault behind them. -/
def zerosThenFault (size : Nat) : Delivery :=
  .chunk (List.replicate size 0) fun _ => .failed .checksumMismatch

theorem length_output_zerosThenFault (size : Nat) :
    (zerosThenFault size).output.length = size := by
  have output_eq : (zerosThenFault size).output = List.replicate size 0 :=
    List.append_nil _
  rw [output_eq, List.length_replicate]

theorem bounded_zerosThenFault {size : Nat} (full : size + 1 = Nat.pow 2 64) :
    (bounded .gzip size (zerosThenFault size)).1 = .ok (zerosThenFault size).output := by
  have size_eq := length_output_zerosThenFault size
  rw [bounded_eq .gzip size (by omega), size_eq, if_neg (Nat.lt_irrefl size)]
  have uncounted : ¬ size + 1 < Nat.pow 2 64 := Nat.not_lt.mpr (Nat.le_of_eq full.symm)
  exact if_neg uncounted

/-- The letter a in a gzip member of one stored block. -/
def firstMember : List UInt8 :=
  [0x1F, 0x8B, 0x08, 0x00, 0x00, 0x00, 0x00, 0x00, 0x00, 0xFF, 0x01, 0x01, 0x00, 0xFE, 0xFF,
    0x61, 0x43, 0xBE, 0xB7, 0xE8, 0x01, 0x00, 0x00, 0x00]

/-- The letter b in such a member. -/
def secondMember : List UInt8 :=
  [0x1F, 0x8B, 0x08, 0x00, 0x00, 0x00, 0x00, 0x00, 0x00, 0xFF, 0x01, 0x01, 0x00, 0xFE, 0xFF,
    0x62, 0xF9, 0xEF, 0xBE, 0x71, 0x01, 0x00, 0x00, 0x00]

/-- As many zeros as can be counted are read although a fault stands behind them. Of a
payload with two members the text is that of the first one. -/
theorem bounded_unconfirmed_end :
    ((zerosThenFault (Nat.pow 2 64 - 1)).output.length = Nat.pow 2 64 - 1 ∧
        (zerosThenFault (Nat.pow 2 64 - 1)).fault? = some .checksumMismatch ∧
        (bounded .gzip (Nat.pow 2 64 - 1) (zerosThenFault (Nat.pow 2 64 - 1))).1 =
          .ok (zerosThenFault (Nat.pow 2 64 - 1)).output) ∧
      (toText firstMember 64 .utf8).value = .ok ['a'] ∧
      (toText secondMember 64 .utf8).value = .ok ['b'] ∧
      (toText (firstMember ++ secondMember) 64 .utf8).value = .ok ['a'] :=
  ⟨⟨length_output_zerosThenFault _, rfl, bounded_zerosThenFault rfl⟩, rfl, rfl, rfl⟩

end Payload

end LogIntake.Gelf
