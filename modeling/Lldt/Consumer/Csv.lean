import Lldt.Consumer.Metrics
import Lldt.Endpoint.Arguments

namespace Lldt.Harness

open Lldt.Data.Digits
open Lldt.Transport

/-! What the consumer leaves behind: a file with its samples and an exit status. -/

def digitSymbol (value : Nat) : UInt8 := '0'.toUInt8 + UInt8.ofNat value

/-- `%llu`: no number of 64 bits has more than twenty digits. -/
def printU64 (value : UInt64) : CString := print digitSymbol 10 20 value.toNat

def csvHeader : CString := cstring "seq,latency_ns\n"

def csvRow (sample : Sample) : CString :=
  printU64 sample.seqId ++ ','.toUInt8 :: (printU64 sample.latencyNs ++ ['\n'.toUInt8])

def csvText (samples : List Sample) : CString := csvHeader ++ samples.flatMap csvRow

/-- What becomes of `fopen` and of `fclose`. -/
structure FileOutcome where
  opened : Bool
  closed : Bool

/-- `dump_csv`: whether the file could be written, and the text printed to it. -/
def Accumulator.dumpCsv (accumulator : Accumulator) (file : FileOutcome) : Bool × CString :=
  if file.opened then
    (file.closed, csvText (accumulator.samples.take accumulator.stored.toNat))
  else (false, [])

/-- The end of `main`: its status, and the file where `--csv` asks for one. -/
def Accumulator.leave (accumulator : Accumulator) (csv : Bool) (file : FileOutcome) :
    Nat × CString :=
  let (written, text) := if csv then accumulator.dumpCsv file else (true, [])
  if !written then (1, text)
  else if accumulator.overflow ≠ 0 then (1, text)
  else (0, text)

/-! The rows can be read back. -/

theorem digit_digitSymbol : ∀ value < 10, digit 10 (digitSymbol value) = some value := by
  decide

theorem numeral_printU64 (value : UInt64) : Numeral (digit 10) 10 (printU64 value) value.toNat :=
  numeral_print (by decide) digit_digitSymbol (Nat.lt_trans value.toNat_lt (by decide))

theorem printU64_injective : Function.Injective printU64 := by
  intro first second same
  have read := (numeral_printU64 first).valueOf_eq
  rw [same, (numeral_printU64 second).valueOf_eq] at read
  exact UInt64.toNat_inj.mp read.symm

theorem notMem_printU64 {symbol : UInt8} (other : digit 10 symbol = none) (value : UInt64) :
    symbol ∉ printU64 value := by
  intro member
  have isDigit := (numeral_printU64 value).digits symbol member
  rw [other] at isDigit
  contradiction

theorem csvRow_readable (first second : Sample) (rest more : CString)
    (same : csvRow first ++ rest = csvRow second ++ more) : first = second ∧ rest = more := by
  have comma : ∀ value, ','.toUInt8 ∉ printU64 value := notMem_printU64 (by decide)
  have newline : ∀ value, '\n'.toUInt8 ∉ printU64 value := notMem_printU64 (by decide)
  simp only [csvRow, List.append_assoc, List.cons_append, List.nil_append] at same
  obtain ⟨seqIds, same⟩ := field_inj (comma _) (comma _) same
  obtain ⟨latencies, following⟩ := field_inj (newline _) (newline _) same
  refine ⟨?_, following⟩
  cases first with
  | mk seqId latencyNs =>
      cases printU64_injective seqIds
      cases printU64_injective latencies
      rfl

/-- A file of samples is the file of no others. -/
theorem csvText_injective : Function.Injective csvText := by
  intro left right same
  have rows : left.flatMap csvRow = right.flatMap csvRow := List.append_cancel_left same
  refine flatMap_injective (fun sample => ?_) csvRow_readable rows
  exact List.append_ne_nil_of_right_ne_nil _ (List.cons_ne_nil _ _)

variable {accumulator : Accumulator} {capacity : UInt64} {calls : List Sample}

theorem Accumulator.Recorded.leave_eq (recorded : accumulator.Recorded capacity calls)
    (file : FileOutcome) :
    ((accumulator.leave true file).1 = 0 ↔
      file.opened = true ∧ file.closed = true ∧ accumulator.overflow = 0) ∧
    (file.opened = true →
      (accumulator.leave true file).2 = csvText (calls.take capacity.toNat)) := by
  have text := congrArg csvText recorded.samples
  obtain ⟨opened, closed⟩ := file
  cases opened with
  | false => simp [Accumulator.leave, Accumulator.dumpCsv]
  | true =>
      rw [← text]
      cases closed with
      | false => simp [Accumulator.leave, Accumulator.dumpCsv]
      | true =>
          simp only [Accumulator.leave, Accumulator.dumpCsv]
          by_cases full : accumulator.overflow = 0 <;> simp [full]

end Lldt.Harness
