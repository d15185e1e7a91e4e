import OneProxy.Util.StringBufLaws

/-! Reading everything a socket has to offer into a buffer. -/

namespace OneProxy

open Memory

/-- What the allocator and the kernel answer during one `socket_readAllData` call. -/
structure ReadCall where
  malloc : Allocator UInt8
  /-- The amount `FIONREAD` reports, or nothing where the ioctl fails. -/
  fionread : Option UInt32
  /-- The bytes `recv` hands over, or nothing where it returns -1. -/
  recv : Option Bytes
  -- The amount is reported as a non-negative `int`.
  reported : ∀ dataLen, fionread = some dataLen → dataLen.toNat < 0x80000000
  -- No more is received than was asked for, and none of it into a null buffer.
  received : ∀ dataLen data, fionread = some dataLen → recv = some data →
    data.length ≤ dataLen.toNat
  stored : ∀ dataLen data, fionread = some dataLen → recv = some data → data ≠ [] →
    (malloc.alloc (StringBuf.alignment dataLen).toNat).isSome

namespace ReadCall

/-- The bytes the call takes out of the kernel's stream. -/
def chunk (call : ReadCall) : Bytes :=
  match call.fionread with
  | none => []
  | some dataLen => if dataLen ≤ 0 then [] else call.recv.getD []

/-- A call that is offered exactly `data`, with an allocator that answers. -/
def offering (data : Bytes) (small : data.length < 0x80000000) : ReadCall where
  malloc := Allocator.filled 0
  fionread := some (UInt32.ofNat data.length)
  recv := some data
  reported dataLen same := by
    cases same
    rw [UInt32.toNat_ofNat']
    omega
  received dataLen other same sameData := by
    cases same
    cases sameData
    rw [UInt32.toNat_ofNat']
    omega
  stored dataLen other _ _ _ := Allocator.filled_succeeds 0 _

end ReadCall

/--
Reads what the socket has into the buffer, as the linux build does.

Every failed `recv` returns there, also one that would only have had to wait.
-/
def socketReadAllData (call : ReadCall) (sb : StringBuf) : Option (Int × StringBuf) :=
  match call.fionread with
  | none => some (-1, sb)
  | some dataLen =>
    if dataLen ≤ 0 then some (0, sb)
    else do
      -- The result of making room is not looked at.
      let (_, sb) ← sb.reallocMem call.malloc (sb.length + dataLen)
      match call.recv with
      | none => some (-1, sb)
      | some data => do
        let sb ← sb.recvInto data
        some (0, sb)

/--
A call on a new buffer leaves in it exactly the bytes taken out of the stream.

Where none were taken the buffer is empty, but a failed allocation may have spoilt its capacity.
-/
theorem socketReadAllData_new (call : ReadCall) :
    ∃ ret sb, socketReadAllData call .new = some (ret, sb) ∧
      (call.chunk = [] ∧ sb.length = 0 ∧ sb.offset = 0 ∨
        ¬ ret < 0 ∧ sb.WellFormed ∧ sb.remaining = call.chunk) := by
  -- The cases follow the code: the ioctl, an empty socket, then what `recv` answers.
  cases told : call.fionread with
  | none =>
    exact ⟨-1, .new, by simp only [socketReadAllData, told], .inl
      ⟨by simp only [ReadCall.chunk, told], rfl, rfl⟩⟩
  | some dataLen =>
    by_cases empty : dataLen ≤ 0
    · exact ⟨0, .new, by simp only [socketReadAllData, told, if_pos empty], .inl
        ⟨by simp only [ReadCall.chunk, told, if_pos empty], rfl, rfl⟩⟩
    have small := call.reported dataLen told
    have start : StringBuf.new.length + dataLen = dataLen := UInt32.zero_add dataLen
    have chunk : call.chunk = call.recv.getD [] := by
      simp only [ReadCall.chunk, told, if_neg empty]
    simp only [socketReadAllData, told, if_neg empty, start, chunk]
    cases grown : call.malloc.alloc (StringBuf.alignment dataLen).toNat with
    | none =>
      -- Nothing can be received into the null buffer.
      have made : StringBuf.new.reallocMem call.malloc dataLen =
          some (-1, { StringBuf.new with allocateLen := StringBuf.alignment dataLen }) := by
        have tooSmall : ¬ StringBuf.new.allocateLen ≥ dataLen := empty
        simp only [StringBuf.reallocMem, if_neg tooSmall, grown]
      simp only [made, Option.bind_eq_bind, Option.bind_some]
      cases told' : call.recv with
      | none => exact ⟨-1, _, rfl, .inl ⟨rfl, rfl, rfl⟩⟩
      | some data =>
        have nothing : data = [] := by
          by_contra something
          simpa [grown] using call.stored dataLen data told told' something
        subst nothing
        exact ⟨0, _, rfl, .inl ⟨rfl, rfl, rfl⟩⟩
    | some cells =>
      obtain ⟨sb, made, wf, held, length, offset, room⟩ :=
        @StringBuf.reallocMem_spec call.malloc .new dataLen StringBuf.new_wellFormed
          (by simp [grown]) (by simp only [StringBuf.maxSize]; omega)
      simp only [made, Option.bind_eq_bind, Option.bind_some]
      cases told' : call.recv with
      | none => exact ⟨-1, sb, rfl, .inl ⟨rfl, length, offset⟩⟩
      | some data =>
        have fits := call.received dataLen data told told'
        have zero : sb.length.toNat = 0 := by rw [length]; rfl
        obtain ⟨filled, done, filledWf, filledBytes, filledOffset⟩ :=
          @StringBuf.recvInto_spec sb data wf (by omega)
        refine ⟨0, filled, by simp only [done, Option.bind_some], .inr
          ⟨by decide, filledWf, ?_⟩⟩
        -- The buffer held nothing before, and is read from its start.
        rw [StringBuf.remaining, filledBytes, held, filledOffset, offset]
        rfl

end OneProxy
