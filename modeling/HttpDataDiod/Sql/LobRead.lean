import HttpDataDiod.Sql.OracleExecutor

/-!
# Reading a LOB

`OracleQueryExecutor::execute_query` asks for the size of a LOB, makes a buffer of as many
bytes, at most `g_max_lob_bytes` of them, and reads into it with `dpiLob_readBytes`.  The
last argument of that function goes in as the capacity of the buffer and comes out as the
number of bytes that were written; the executor hands it in as zero.

What OCI does behind `dpiLob.c` is an argument: `OciLobLibrary`, with what its
documentation promises of a read.

* `Lob`, `Lob.units`: a LOB and its characters or bytes.
* `dpiLobReadBytes`, `readLob`: the vendored function and the branch of the executor.
* `ReturnedWhole`: a LOB comes back whole, or cut behind a character.
* `returnedWhole_iff`: it does exactly when it is empty.
-/

namespace HttpDataDiod
namespace Sql

open ByteText JsonValue

/-! ## LOBs -/

/-- The content of a LOB: characters, or bytes. -/
inductive Lob where
  | clob (chars : List Char)
  | nclob (chars : List Char)
  | blob (bytes : Bytes)
  | bfile (bytes : Bytes)

namespace Lob

def type : Lob → OracleType
  | .clob _ => .clob
  | .nclob _ => .nclob
  | .blob _ => .blob
  | .bfile _ => .bfile

/-- `isCharacterData`. -/
def isCharacterData : Lob → Bool
  | .clob _ => true
  | .nclob _ => true
  | .blob _ => false
  | .bfile _ => false

/-- What the sizes and the amounts count: the characters, in UTF-8, or the bytes. -/
def units : Lob → List Bytes
  | .clob chars => chars.map String.utf8EncodeChar
  | .nclob chars => chars.map String.utf8EncodeChar
  | .blob bytes => bytes.map fun b => [b]
  | .bfile bytes => bytes.map fun b => [b]

/-- The bytes of a LOB. -/
def content (lob : Lob) : Bytes := lob.units.flatten

end Lob

/-! ## The driver -/

/-- What `OCILobRead2` says: success; that the buffer does not hold what is left; or an error.
In the first two cases it has written something to the buffer. -/
inductive LobReadStatus where
  | success (written : Bytes)
  | needData (written : Bytes)
  | failed (e : DpiError)

/-- What has been written to the buffer by a read that is no error. -/
def LobReadStatus.written : LobReadStatus → Bytes
  | .success written => written
  | .needData written => written
  | .failed _ => []

/-- The calls of OCI that are made for a LOB, and what is promised of them: the length is in
characters or in bytes, and no more is written than the buffer holds. -/
structure OciLobLibrary where
  lobGetLength2 : Lob → Except DpiError ℕ
  lobIsOpen : Lob → Except DpiError Bool
  lobOpen : Lob → Except DpiError Unit
  lobClose : Lob → Except DpiError Unit
  lobRead2 : Lob → (offset amountInBytes amountInChars bufferLength : ℕ) → LobReadStatus
  length_units : ∀ lob n, lobGetLength2 lob = .ok n → n = lob.units.length
  written_le : ∀ lob offset amountInBytes amountInChars bufferLength,
    (lobRead2 lob offset amountInBytes amountInChars bufferLength).written.length ≤ bufferLength

variable (oci : OciLobLibrary)

/-- `dpiOci__lobRead2`: what has been written, and the amount in bytes. -/
def dpiOciLobRead2 (lob : Lob) (offset amountInBytes amountInChars bufferLength : ℕ) :
    Except DpiError (Bytes × ℕ) :=
  match oci.lobRead2 lob offset amountInBytes amountInChars bufferLength with
  | .success written => .ok (written, written.length)
  | .needData written => .ok (written, 0)
  | .failed e => .error e

/-- `dpiLob__readBytes`: what has been written to the buffer, and the value length. -/
def dpiLobReadBytes (lob : Lob) (offset amount valueLength : ℕ) :
    Except DpiError (Bytes × ℕ) := do
  let lengthInChars := if lob.isCharacterData then amount else 0
  let lengthInBytes := if lob.isCharacterData then 0 else amount
  if lob.type = .bfile then
    let isOpen ← oci.lobIsOpen lob
    if isOpen then dpiOciLobRead2 oci lob offset lengthInBytes lengthInChars valueLength
    else
      oci.lobOpen lob
      let read ← dpiOciLobRead2 oci lob offset lengthInBytes lengthInChars valueLength
      oci.lobClose lob
      return read
  else dpiOciLobRead2 oci lob offset lengthInBytes lengthInChars valueLength

/-! ## The executor -/

/-- `g_max_lob_bytes`. -/
def maxLobBytes : ℕ := 1024 * 1024

/-- `std::string::resize`. -/
def resize (s : Bytes) (n : ℕ) : Bytes := s.take n ++ List.replicate (n - s.length) 0

/-- The buffer with something written to its beginning. -/
def overwrite (buffer written : Bytes) : Bytes := written ++ buffer.drop written.length

/-- The case `DPI_NATIVE_TYPE_LOB`: the buffer. -/
def readLob (lob : Option Lob) : Bytes :=
  match lob with
  | none => []
  | some lob =>
    match oci.lobGetLength2 lob with
    | .error _ => []
    | .ok lobSize =>
      if 0 < lobSize then
        let amount := min lobSize maxLobBytes
        let buffer := resize [] amount
        match dpiLobReadBytes oci lob 1 amount 0 with
        | .error _ => []
        | .ok (written, readLen) => resize (overwrite buffer written) readLen
      else []

/-- A fetched value, of which the executor has read the LOB. -/
def DpiData.withLob (data : DpiData) (lob : Option Lob) : DpiData :=
  { data with isNull := false, asLOB := readLob oci lob }

/-! ## What should come back -/

/-- Content as it stands in an answer: UTF-8 text, or base64. -/
def lobValue (type : OracleType) (content : Bytes) : JsonValue :=
  .string (if isBlob type then toBase64 content else content)

/-- **A LOB comes back whole**, up to the limit; a longer one is cut behind a character, and
not to nothing; and only an empty one comes back empty. -/
structure ReturnedWhole (lob : Lob) (value : JsonValue) : Prop where
  whole : lob.content.length ≤ maxLobBytes → value = lobValue lob.type lob.content
  cut : maxLobBytes < lob.content.length →
    ∃ units, units <+: lob.units ∧ units ≠ [] ∧ value = lobValue lob.type units.flatten
  empty : value = .string [] → lob.units = []

theorem lobValue_eq_empty_iff {type : OracleType} {content : Bytes} :
    lobValue type content = .string [] ↔ content = [] := by
  unfold lobValue
  cases isBlob type with
  | false => simp
  | true =>
    constructor
    · intro h
      by_contra hne
      exact toBase64_ne_nil hne (by simpa using h)
    · rintro rfl
      rfl

theorem lobValue_type (lob : Lob) (data : DpiData) :
    oracleValue lob.type (data.withLob oci (some lob)) =
      lobValue lob.type (readLob oci (some lob)) := by
  cases lob <;> rfl

variable {oci}

/-- No more bytes are read than the capacity. -/
theorem dpiOciLobRead2_le {lob : Lob} {offset amountInBytes amountInChars bufferLength : ℕ}
    {read : Bytes × ℕ}
    (h : dpiOciLobRead2 oci lob offset amountInBytes amountInChars bufferLength = .ok read) :
    read.2 ≤ bufferLength := by
  have hle := oci.written_le lob offset amountInBytes amountInChars bufferLength
  unfold dpiOciLobRead2 at h
  split at h
  · next written hread =>
    obtain rfl := Except.ok.inj h
    rw [hread] at hle
    exact hle
  · obtain rfl := Except.ok.inj h
    exact Nat.zero_le _
  · cases h

theorem dpiLobReadBytes_le {lob : Lob} {offset amount valueLength : ℕ} {read : Bytes × ℕ}
    (h : dpiLobReadBytes oci lob offset amount valueLength = .ok read) :
    read.2 ≤ valueLength := by
  unfold dpiLobReadBytes at h
  simp only at h
  split at h
  · cases hopen : oci.lobIsOpen lob with
    | error e =>
      rw [hopen] at h
      cases h
    | ok isOpen =>
      rw [hopen] at h
      cases isOpen with
      | true => exact dpiOciLobRead2_le h
      | false =>
        cases hopened : oci.lobOpen lob with
        | error e =>
          simp only [hopened] at h
          cases h
        | ok _ =>
          simp only [hopened] at h
          cases hread : dpiOciLobRead2 oci lob offset (if lob.isCharacterData then 0 else amount)
              (if lob.isCharacterData then amount else 0) valueLength with
          | error e =>
            simp only [hread] at h
            cases h
          | ok read' =>
            simp only [hread] at h
            cases hclosed : oci.lobClose lob with
            | error e =>
              simp only [hclosed] at h
              cases h
            | ok _ =>
              simp only [hclosed] at h
              obtain rfl := Except.ok.inj h
              exact dpiOciLobRead2_le hread
  · exact dpiOciLobRead2_le h

/-- **The executor reads nothing**, of whatever LOB. -/
theorem readLob_eq_nil (oci : OciLobLibrary) (lob : Option Lob) : readLob oci lob = [] := by
  unfold readLob
  split
  · rfl
  · next lob =>
    split
    · rfl
    · split
      · simp only
        split
        · rfl
        · next written readLen hread =>
          have hzero : readLen = 0 := Nat.le_zero.mp (dpiLobReadBytes_le hread)
          rw [hzero, resize, Nat.zero_sub, List.take_zero]
          rfl
      · rfl

/-- **When a LOB comes back whole**: exactly when it is empty. -/
theorem returnedWhole_iff (oci : OciLobLibrary) (lob : Lob) (data : DpiData) :
    ReturnedWhole lob (oracleValue lob.type (data.withLob oci (some lob))) ↔ lob.units = [] := by
  have hvalue : oracleValue lob.type (data.withLob oci (some lob)) = .string [] := by
    rw [lobValue_type, readLob_eq_nil, lobValue_eq_empty_iff]
  rw [hvalue]
  constructor
  · intro h
    exact h.empty rfl
  · intro hunits
    have hcontent : lob.content = [] := by
      rw [Lob.content, hunits, List.flatten_nil]
    refine ⟨fun _ => ?_, fun hlong => ?_, fun _ => hunits⟩
    · rw [hcontent]
      exact (lobValue_eq_empty_iff.mpr rfl).symm
    · rw [hcontent] at hlong
      exact absurd hlong (Nat.not_lt_zero _)

/-- What is asked for is written, as far as the buffer holds it. -/
def readInto (bufferLength : ℕ) (wanted : Bytes) : LobReadStatus :=
  if wanted.length ≤ bufferLength then .success wanted
  else .needData (wanted.take bufferLength)

theorem written_readInto_le (bufferLength : ℕ) (wanted : Bytes) :
    (readInto bufferLength wanted).written.length ≤ bufferLength := by
  unfold readInto
  split
  · next hfits => exact hfits
  · exact List.length_take_le _ _

/-- A server that reads in one piece. -/
def onePieceOci : OciLobLibrary where
  lobGetLength2 lob := .ok lob.units.length
  lobIsOpen _ := .ok false
  lobOpen _ := .ok ()
  lobClose _ := .ok ()
  lobRead2 lob offset amountInBytes amountInChars bufferLength :=
    let amount := if lob.isCharacterData then amountInChars else amountInBytes
    readInto bufferLength ((lob.units.drop (offset - 1)).take amount).flatten
  length_units := fun _ _ h => (Except.ok.inj h).symm
  written_le := fun _ _ _ _ bufferLength => written_readInto_le bufferLength _

/-- A fetched value, before its LOB is read. -/
def fetchedLob : DpiData where
  isNull := false
  asBytes := []
  asInt64 := 0
  asUint64 := 0
  asDouble := 0
  asTimestamp := ⟨0, 0, 0, 0, 0, 0, 0, 0, 0⟩
  asIntervalDS := ⟨0, 0, 0, 0, 0⟩
  asIntervalYM := ⟨0, 0⟩
  asLOB := []

/-- With the capacity of the buffer the letter is read. -/
example : dpiLobReadBytes onePieceOci (.clob ['a']) 1 1 1 = .ok (ascii "a", 1) := rfl

/-- **A `CLOB` of one letter comes back empty.** -/
theorem clob_not_returnedWhole :
    ¬ ReturnedWhole (.clob ['a'])
      (oracleValue .clob (fetchedLob.withLob onePieceOci (some (.clob ['a'])))) := by
  intro h
  have hwhole := h.whole (by decide)
  exact absurd (JsonValue.string.inj hwhole) (by decide)

end Sql
end HttpDataDiod
