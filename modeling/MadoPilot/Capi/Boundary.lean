import MadoPilot.Capi.Layout
import MadoPilot.Lib.LittleEndian
import MadoPilot.Lib.Memory

/-!
# Reading and writing a caller's structures

A caller declares how much of a structure there is in its first four bytes.  `read` takes that much of
an input and fills up the rest with the defaults; `Out` writes that much of an output.  Both go through
a memory that may be mapped only in part: a result of `none` is an access outside of it.

The declared sizes are read as the hosts of the library hold them, the lowest byte first.
-/

namespace MadoPilot.Capi

open MadoPilot.Lib

/-! ### Faults -/

def statusInvalidArgument : ℤ := 1

def errorCategoryAbi : ℤ := 1

structure Fault where
  status : ℤ
  category : ℤ
  message : String
  deriving DecidableEq

def Fault.abi (message : String) : Fault := ⟨statusInvalidArgument, errorCategoryAbi, message⟩

/-- A number in the form of `:#x`. -/
def hex (n : ℕ) : String := "0x" ++ String.ofList (Nat.toDigits 16 n)

/-! ### Spans -/

def usizeMax : ℕ := 2 ^ 64 - 1

def isizeMax : ℕ := 2 ^ 63 - 1

def span (count stride mandatory : ℕ) (name : String) : Except Fault ℕ :=
  if count = 0 then .ok 0
  else if stride < mandatory then
    .error (.abi (s!"`{name}` declares a {stride} byte element stride, below the {mandatory} " ++
      "byte mandatory prefix"))
  else
    let total := count * stride
    if usizeMax < total then
      .error (.abi s!"`{name}` spans {count} elements of {stride} bytes, which overflows")
    else if isizeMax < total then
      .error (.abi s!"`{name}` spans {total} bytes, which is not a representable object size")
    else .ok total

/-! ### Inputs -/

def familyOwners : List String :=
  ["madopilot_operation_t", "madopilot_open_request_t", "madopilot_map_request_t",
    "madopilot_find_request_t", "madopilot_ocr_request_t", "madopilot_match_options_t",
    "madopilot_input_request_t"]

def ownsAFamily (name : String) : Bool := familyOwners.contains name

variable {report : List TypeLayout}

/-- An implementation of `Input`.  A value is the bytes of it; what the report has under the
structure's name is its layout. -/
structure Input (report : List TypeLayout) where
  name : String
  layout : CLayout
  mandatory : ℕ
  prefixes : List ℕ
  presence : List (ℕ × ℕ)
  defaults : List UInt8
  presenceBits : List UInt8 → ℕ
  defaults_length : defaults.length = layout.size
  reported : ∀ l, measured report name = some l → l = layout.toTypeLayout

namespace Input

variable (s : Input report)

/-- The loop of `check_input_tables` over the presence table, behind the sizes it has seen. -/
def checkPresence (earlier : List ℕ) : List (ℕ × ℕ) → Bool
  | [] => true
  | (_, required) :: rest =>
    lists s.prefixes required && decide (s.mandatory < required) && !lists earlier required &&
      checkPresence (earlier ++ [required]) rest

def checkInputTables : Bool :=
  checkPrefixTable report s.name s.prefixes s.mandatory &&
    (s.presence.isEmpty || ownsAFamily s.name) && s.checkPresence [] s.presence

/-- The defaults behind the caller's bytes. -/
def fill (bytes : List UInt8) : List UInt8 := bytes ++ s.defaults.drop bytes.length

/-- The first presence bit that is set for a field the declared size does not reach. -/
def unreached (bits declared : ℕ) : Option (ℕ × ℕ) :=
  s.presence.find? fun p => bits &&& p.1 != 0 && decide (declared < p.2)

def read (m : Memory) (ptr : ℕ) (stride : Option ℕ) : Option (Except Fault (List UInt8)) :=
  let name := s.name
  if ptr = 0 then some (.error (.abi s!"the {name} argument is null"))
  else if ptr % s.layout.align ≠ 0 then
    let align := s.layout.align
    some (.error (.abi s!"the {name} argument is not aligned to {align} bytes"))
  else
    (m.load ptr 4).bind fun word =>
      let declared := LittleEndian.value word
      if declared < s.mandatory then
        let mandatory := s.mandatory
        some (.error (.abi (s!"the {name} argument declares {declared} bytes, below its " ++
          s!"{mandatory} byte mandatory prefix")))
      else if stride.any (· < declared) then
        let stride := stride.getD 0
        some (.error (.abi (s!"a {name} element declares {declared} bytes, above the {stride} " ++
          "byte element stride of the array it is read from")))
      else if declared < s.layout.size ∧ lists s.prefixes declared = false then
        some (.error (.abi (s!"the {name} argument declares {declared} bytes, which ends inside " ++
          "a field rather than at a field boundary")))
      else
        (m.load ptr (min declared s.layout.size)).map fun bytes =>
          let value := s.fill bytes
          match s.unreached (s.presenceBits value) declared with
          | some (bit, required) =>
            let bit := hex bit
            .error (.abi (s!"the {name} argument sets presence bit {bit} for a field its " ++
              s!"{declared} byte prefix does not reach, which needs {required} bytes"))
          | none => .ok value

def readInput (m : Memory) (ptr : ℕ) : Option (Except Fault (List UInt8)) := s.read m ptr none

def readElement (m : Memory) (ptr stride : ℕ) : Option (Except Fault (List UInt8)) :=
  s.read m ptr (some stride)

end Input

/-! ### Outputs -/

/-- An implementation of `Versioned`.  The failure state has the size it is given in its first four
bytes. -/
structure Versioned (report : List TypeLayout) where
  name : String
  layout : CLayout
  mandatory : ℕ
  prefixes : List ℕ
  zeroedPadding : List (ℕ × ℕ)
  failure : ℕ → List UInt8
  failure_length : ∀ n, (failure n).length = layout.size
  failure_size : ∀ n, (failure n).take 4 = LittleEndian.bytes 4 n
  reported : ∀ l, measured report name = some l → l = layout.toTypeLayout

def narrow (size : ℕ) : ℕ := min size (2 ^ 32 - 1)

/-- An output that was accepted. -/
structure Out where
  ptr : ℕ
  size : ℕ
  deriving DecidableEq

def Out.declaredSize (out : Out) : ℕ := narrow out.size

/-- The loop of `write` over the padding ranges, each one as far as the covered bytes go. -/
def Out.zero (out : Out) (m : Memory) : List (ℕ × ℕ) → Option Memory
  | [] => some m
  | (start, stop) :: rest =>
    if start < min stop out.size then
      (m.store (out.ptr + start) (List.replicate (min stop out.size - start) 0)).bind (out.zero · rest)
    else out.zero m rest

namespace Versioned

variable (s : Versioned report)

/-- The loop of `check_output_tables` over the padding ranges. -/
def checkPadding (previous : ℕ) : List (ℕ × ℕ) → Bool
  | [] => true
  | (start, stop) :: rest =>
    decide (start < stop) && decide (previous ≤ start) && decide (stop ≤ s.layout.size) &&
      checkPadding stop rest

def checkOutputTables : Bool :=
  checkPrefixTable report s.name s.prefixes s.mandatory && s.checkPadding 0 s.zeroedPadding

def write (out : Out) (m : Memory) (value : List UInt8) : Option Memory :=
  (m.store out.ptr (value.take out.size)).bind (out.zero · s.zeroedPadding)

/-- `begin`. -/
def start (m : Memory) (ptr : ℕ) : Option (Except Fault Out × Memory) :=
  let name := s.name
  if ptr = 0 then some (.error (.abi s!"the {name} output is null"), m)
  else if ptr % s.layout.align ≠ 0 then
    let align := s.layout.align
    some (.error (.abi s!"the {name} output is not aligned to {align} bytes"), m)
  else
    (m.load ptr 4).bind fun word =>
      let declared := LittleEndian.value word
      if declared < s.mandatory then
        let mandatory := s.mandatory
        some (.error (.abi (s!"the {name} output declares {declared} bytes, below its " ++
          s!"{mandatory} byte mandatory prefix")), m)
      else if declared < s.layout.size ∧ lists s.prefixes declared = false then
        some (.error (.abi (s!"the {name} output declares {declared} bytes, which ends inside " ++
          "a field rather than at a field boundary")), m)
      else
        let out : Out := ⟨ptr, min declared s.layout.size⟩
        (s.write out m (s.failure (narrow out.size))).map (.ok out, ·)

def commit (out : Out) (m : Memory) (value : List UInt8) : Option Memory := s.write out m value

def commits (out : Out) (m : Memory) : List (List UInt8) → Option Memory
  | [] => some m
  | value :: values => (s.commit out m value).bind (commits out · values)

end Versioned

end MadoPilot.Capi
