import OneProxy.Util.StringBufLaws

/-! How much of the decrypted data one `read_sslData` takes into the receive buffer. -/

namespace OneProxy.NetworkSocket

open Memory StringBuf

/-! ## The loop -/

/-- The capacity as `SSL_read` takes it, an `int`. -/
def capacity (recvData : StringBuf) : Int := recvData.remailAllocLen.toInt32.toInt

/--
`SSL_read`, and the error that is asked for after it: bytes, or whether there will be more to read.

For no capacity at all it is not known which error it is.
-/
def sslRead (wantsAtZero : Bool) (available : Bytes) (num : Int) : Bytes ⊕ Bool :=
  if num < 0 then .inr false
  else if num = 0 then .inr wantsAtZero
  else if available = [] then .inr true
  else .inl (available.take num.toNat)

/-- Bytes that are read are the first ones, and some. -/
theorem sslRead_bytes {wantsAtZero : Bool} {available bytes : Bytes} {num : Int}
    (read : sslRead wantsAtZero available num = .inl bytes) :
    0 < num ∧ available ≠ [] ∧ bytes = available.take num.toNat := by
  unfold sslRead at read
  split at read
  · cases read
  · split at read
    · cases read
    · split at read
      · cases read
      · next some_ =>
        cases read
        exact ⟨by omega, some_, rfl⟩

/-- What `read_sslData` returns and leaves, and the capacities it called `SSL_read` with. -/
structure SslResult where
  ret : Int
  recvData : StringBuf
  capacities : List Int

/-- More room, where little is left. -/
def makeRoom (m : Allocator UInt8) (recvData : StringBuf) : Option StringBuf :=
  if recvData.remailAllocLen ≤ 64 then (recvData.reallocMem m 1024).map (·.2) else some recvData

/-- `read_sslData`: reads until there is nothing more to read. -/
def readSslData (m : Allocator UInt8) (wantsAtZero : Bool) (recvData : StringBuf)
    (available : Bytes) : Option SslResult := do
  let recvData ← makeRoom m recvData
  match read : sslRead wantsAtZero available (capacity recvData) with
  | .inr wants => some ⟨if wants then 0 else -1, recvData, [capacity recvData]⟩
  | .inl bytes =>
    let filled ← recvData.recvInto bytes
    let result ← readSslData m wantsAtZero filled (available.drop bytes.length)
    some { result with capacities := capacity recvData :: result.capacities }
termination_by available.length
decreasing_by
  obtain ⟨positive, some_, rfl⟩ := sslRead_bytes read
  have more := List.length_pos_iff.mpr some_
  simp only [List.length_drop, List.length_take]
  omega

/-- One turn that reads leaves the rest of the data to the turns after it. -/
theorem readSslData_turn {m : Allocator UInt8} {wantsAtZero : Bool} {recvData roomy : StringBuf}
    {available : Bytes} (made : makeRoom m recvData = some roomy) (positive : 0 < capacity roomy)
    (some_ : available ≠ []) :
    readSslData m wantsAtZero recvData available =
      (roomy.recvInto (available.take (capacity roomy).toNat)).bind fun filled =>
        (readSslData m wantsAtZero filled (available.drop (capacity roomy).toNat)).map fun result =>
          { result with capacities := capacity roomy :: result.capacities } := by
  have read : sslRead wantsAtZero available (capacity roomy) =
      .inl (available.take (capacity roomy).toNat) := by
    rw [sslRead, if_neg (by omega), if_neg (by omega), if_neg some_]
  rw [readSslData, made]
  simp only [Option.bind_eq_bind, Option.bind_some]
  split
  · next stops => cases read.symm.trans stops
  · next bytes reads =>
    obtain rfl := Sum.inl.inj (read.symm.trans reads)
    -- The next turn begins where this one stopped reading.
    have rest : available.drop (available.take (capacity roomy).toNat).length =
        available.drop (capacity roomy).toNat := by
      rw [List.length_take]
      rcases Nat.le_total (capacity roomy).toNat available.length with less | more
      · rw [Nat.min_eq_left less]
      · rw [Nat.min_eq_right more, List.drop_of_length_le more, List.drop_length]
    rw [rest]
    simp only [Option.map_eq_bind, Function.comp_def]

/-- A turn that reads nothing is the last one. -/
theorem readSslData_stop {m : Allocator UInt8} {wantsAtZero wants : Bool}
    {recvData roomy : StringBuf} {available : Bytes} (made : makeRoom m recvData = some roomy)
    (stops : sslRead wantsAtZero available (capacity roomy) = .inr wants) :
    readSslData m wantsAtZero recvData available =
      some ⟨if wants then 0 else -1, roomy, [capacity roomy]⟩ := by
  rw [readSslData, made]
  simp only [Option.bind_eq_bind, Option.bind_some]
  split
  · next wants' stops' =>
    obtain rfl := Sum.inr.inj (stops.symm.trans stops')
    rfl
  · next bytes reads => cases stops.symm.trans reads

/-! ## Room -/

/-- Each call finds room, and in the end the buffer holds these bytes. -/
def Ends (m : Allocator UInt8) (wantsAtZero : Bool) (recvData : StringBuf)
    (available held : Bytes) :
    Prop :=
  ∃ result, readSslData m wantsAtZero recvData available = some result ∧ 0 ∉ result.capacities ∧
    result.ret = 0 ∧ result.recvData.bytes = held

/-- `SSL_read` is never called without room, and all that is available is appended. -/
def KeepsAll (m : Allocator UInt8) (wantsAtZero : Bool) (recvData : StringBuf) (available : Bytes) :
    Prop :=
  Ends m wantsAtZero recvData available (recvData.bytes ++ available)

/-- The room behind the bytes, by the counters. -/
def room (recvData : StringBuf) : Nat := recvData.allocateLen.toNat - recvData.length.toNat

section

variable {m : Allocator UInt8} {wantsAtZero : Bool} {sb : StringBuf} {data held : Bytes}

theorem remailAllocLen_toNat : sb.remailAllocLen.toNat = room sb := by
  rw [remailAllocLen, room]
  split
  · next order => exact UInt32.toNat_sub_of_le _ _ order
  · next order =>
    have above := UInt32.lt_iff_toNat_lt.mp (UInt32.not_le.mp order)
    rw [UInt32.toNat_zero]
    omega

/-- The capacity is the room, up to the largest `int`. -/
theorem capacity_eq : capacity sb = if room sb < 0x80000000 then (room sb : Int) else
    (room sb : Int) - 0x100000000 := by
  have value : capacity sb = sb.remailAllocLen.toBitVec.toInt := rfl
  have same : sb.remailAllocLen.toBitVec.toNat = room sb := remailAllocLen_toNat
  rw [value, BitVec.toInt_eq_toNat_cond, same]
  split <;> split <;> omega

/-- A turn goes on as it would once there is room. -/
theorem readSslData_roomy {roomy : StringBuf} (made : makeRoom m sb = some roomy)
    (enough : makeRoom m roomy = some roomy) :
    readSslData m wantsAtZero sb data = readSslData m wantsAtZero roomy data := by
  conv_rhs => rw [readSslData]
  rw [readSslData, made, enough]

/-- Without room or data the turn is the last one, and all is well exactly if there was room. -/
theorem ends_last (enough : makeRoom m sb = some sb)
    (last : data = [] ∨ room sb = 0 ∨ 0x80000000 ≤ room sb) :
    Ends m wantsAtZero sb data held ↔ 0 < room sb ∧ room sb < 0x80000000 ∧ sb.bytes = held := by
  -- By whether the capacity, a signed number, is positive.
  have below := sb.allocateLen.toNat_lt
  have bound : room sb < 0x100000000 := by
    unfold room
    omega
  have num := @capacity_eq sb
  by_cases positive : 0 < capacity sb
  · have inRange : 0 < room sb ∧ room sb < 0x80000000 := by
      split at num <;> omega
    obtain rfl : data = [] := last.resolve_right fun none_ => by omega
    have stops : sslRead wantsAtZero [] (capacity sb) = .inr true := by
      rw [sslRead, if_neg (by omega), if_neg (by omega), if_pos rfl]
    rw [Ends, readSslData_stop enough stops]
    constructor
    · intro done
      obtain ⟨result, same, _, _, holds⟩ := done
      cases same
      exact ⟨inRange.1, inRange.2, holds⟩
    · intro done
      refine ⟨_, rfl, fun member => ?_, rfl, done.2.2⟩
      have zero := List.mem_singleton.mp member
      omega
  · refine iff_of_false (fun done => ?_) fun inRange => ?_
    · obtain ⟨result, same, calls, returns, _⟩ := done
      by_cases zero : capacity sb = 0
      · have stops : sslRead wantsAtZero data (capacity sb) = .inr wantsAtZero := by
          rw [sslRead, if_neg (by omega), if_pos zero]
        rw [readSslData_stop enough stops] at same
        cases same
        exact calls (List.mem_singleton.mpr zero.symm)
      · have stops : sslRead wantsAtZero data (capacity sb) = .inr false := by
          rw [sslRead, if_pos (by omega)]
        rw [readSslData_stop enough stops] at same
        cases same
        exact absurd returns (by simp)
    · split at num <;> omega

/-- Bytes that are received need room in the block. -/
theorem recvInto_held (some_ : data ≠ []) (counted : sb.length.toNat + data.length < 0x100000000) :
    (sb.length.toNat + data.length ≤ sb.buf.size → ∃ filled, sb.recvInto data = some filled ∧
      filled.length.toNat = sb.length.toNat + data.length ∧ filled.allocateLen = sb.allocateLen ∧
        filled.buf.size = sb.buf.size ∧ filled.bytes = sb.bytes ++ data) ∧
      (¬ sb.length.toNat + data.length ≤ sb.buf.size → sb.recvInto data = none) := by
  -- The length is counted with 32 bits, which suffice.
  have total : (sb.length + UInt32.ofNat data.length).toNat = sb.length.toNat + data.length := by
    rw [UInt32.toNat_add, UInt32.toNat_ofNat']
    omega
  constructor
  · intro fits
    obtain ⟨written, done, size, cells⟩ := Block.write_spec fits
    refine ⟨{ sb with buf := written, length := sb.length + UInt32.ofNat data.length }, ?_, total,
      rfl,
      size, ?_⟩
    · simp only [recvInto, done, Option.bind_eq_bind, Option.bind_some]
    · have front : ((sb.buf.getD []).take sb.length.toNat ++ data).length =
          sb.length.toNat + data.length := by
        rw [Block.size] at fits
        rw [List.length_append, List.length_take]
        omega
      show (written.getD []).take (sb.length + UInt32.ofNat data.length).toNat = _
      rw [total, cells, List.take_left' front]
      rfl
  · intro outside
    simp only [recvInto, Block.write, if_neg some_, if_neg outside, Option.bind_eq_bind,
      Option.bind_none]

/-- After a turn that reads, it is about the rest of the data. -/
theorem ends_turn (enough : makeRoom m sb = some sb) (inRange : 0 < room sb ∧ room sb < 0x80000000)
    (some_ : data ≠ []) :
    (sb.length.toNat + min data.length (room sb) ≤ sb.buf.size → ∃ filled : StringBuf,
      filled.length.toNat = sb.length.toNat + min data.length (room sb) ∧
        filled.allocateLen = sb.allocateLen ∧ filled.buf.size = sb.buf.size ∧
          filled.bytes ++ data.drop (room sb) = sb.bytes ++ data ∧
            (Ends m wantsAtZero sb data held ↔
              Ends m wantsAtZero filled (data.drop (room sb)) held)) ∧
      (¬ sb.length.toNat + min data.length (room sb) ≤ sb.buf.size →
        ¬ Ends m wantsAtZero sb data held) := by
  have num := @capacity_eq sb
  rw [if_pos inRange.2] at num
  have positive : 0 < capacity sb := by omega
  -- The capacity is the room there is, so the turn reads all that it can hold.
  have natural : (capacity sb).toNat = room sb := by omega
  have turn := @readSslData_turn m wantsAtZero sb sb data enough positive some_
  rw [natural] at turn
  have below := sb.allocateLen.toNat_lt
  have taken : data.take (room sb) ≠ [] := by
    simp only [ne_eq, List.take_eq_nil_iff, some_, or_false]
    omega
  have count : (data.take (room sb)).length = min data.length (room sb) := by
    rw [List.length_take, Nat.min_comm]
  have received := @recvInto_held sb _ taken (by
    rw [count]
    unfold room at inRange ⊢
    omega)
  rw [count] at received
  constructor
  · intro fits
    obtain ⟨filled, done, length, capacity', size, bytes⟩ := received.1 fits
    refine ⟨filled, length, capacity', size, ?_, ?_⟩
    · rw [bytes, List.append_assoc, List.take_append_drop]
    rw [Ends, turn, done, Option.bind_some]
    constructor
    · intro ends
      obtain ⟨result, same, calls, returns, holds⟩ := ends
      obtain ⟨rest, there, rfl⟩ := Option.map_eq_some_iff.mp same
      exact ⟨rest, there, fun member => calls (List.mem_cons_of_mem _ member), returns, holds⟩
    · intro ends
      obtain ⟨rest, there, calls, returns, holds⟩ := ends
      refine ⟨{ rest with capacities := capacity sb :: rest.capacities }, by rw [there]; rfl,
        fun member => ?_, returns, holds⟩
      rcases List.mem_cons.mp member with zero | later
      · omega
      · exact calls later
  · intro outside ends
    obtain ⟨result, same, _⟩ := ends
    rw [turn, received.2 outside] at same
    cases same

/-- A buffer of 1024 bytes or more does not grow. -/
theorem makeRoom_large (large : 1024 ≤ sb.allocateLen.toNat) : makeRoom m sb = some sb := by
  have enough : sb.allocateLen ≥ 1024 := UInt32.le_iff_toNat_le.mpr large
  simp [makeRoom, reallocMem, enough]

/-- There it is about the room behind the bytes alone. -/
theorem ends_large (large : 1024 ≤ sb.allocateLen.toNat) :
    KeepsAll m wantsAtZero sb data ↔ sb.length.toNat + data.length < sb.allocateLen.toNat ∧
      room sb < 0x80000000 ∧
        (data = [] ∨ sb.length.toNat + data.length ≤ sb.buf.size) := by
  have enough := @makeRoom_large m sb large
  have isRoom : room sb = sb.allocateLen.toNat - sb.length.toNat := rfl
  by_cases inRange : 0 < room sb ∧ room sb < 0x80000000
  · rcases List.eq_nil_or_concat data with rfl | ⟨front, last, concat⟩
    · rw [KeepsAll, ends_last enough (.inl rfl), List.append_nil]
      simp only [List.length_nil, true_or, and_true]
      omega
    · have some_ : data ≠ [] := by simp [concat]
      have positive := List.length_pos_iff.mpr some_
      by_cases fits : sb.length.toNat + min data.length (room sb) ≤ sb.buf.size
      · obtain ⟨filled, length, capacity', size, bytes, goesOn⟩ :=
          (@ends_turn m wantsAtZero sb data (sb.bytes ++ data) enough inRange some_).1 fits
        have isRoom' : room filled = sb.allocateLen.toNat - filled.length.toNat := by
          rw [room, capacity']
        have enough' := @makeRoom_large m filled (by rw [capacity']; exact large)
        have rest : (data.drop (room sb)).length = data.length - room sb := List.length_drop
        -- Either nothing is left to read, or no room is left.
        have last' : data.drop (room sb) = [] ∨ room filled = 0 ∨ 0x80000000 ≤ room filled := by
          rcases Nat.le_total data.length (room sb) with less | more
          · exact .inl (List.drop_of_length_le less)
          · exact .inr (.inl (by omega))
        rw [KeepsAll, goesOn, ends_last enough' last']
        constructor
        · intro ends
          exact ⟨by omega, inRange.2, .inr (by omega)⟩
        · intro ends
          have all : data.drop (room sb) = [] := List.drop_of_length_le (by omega)
          rw [all, List.append_nil] at bytes
          exact ⟨by omega, by omega, bytes⟩
      · refine iff_of_false
          ((@ends_turn m wantsAtZero sb data (sb.bytes ++ data) enough inRange some_).2 fits) ?_
        intro ends
        rcases ends.2.2 with none_ | inside
        · exact some_ none_
        · omega
  · have last : data = [] ∨ room sb = 0 ∨ 0x80000000 ≤ room sb := .inr (by omega)
    rw [KeepsAll, ends_last enough last]
    refine iff_of_false (fun ends => inRange ⟨ends.1, ends.2.1⟩) fun ends => ?_
    omega

/-- With little room in a small buffer, it grows first, if it can. -/
theorem ends_grown (small : sb.allocateLen.toNat < 1024) (little : room sb ≤ 64) :
    KeepsAll m wantsAtZero sb data ↔ sb.length.toNat + data.length < 1024 ∧
      if (m.alloc 1024).isSome then sb.length.toNat ≤ sb.buf.size
      else data = [] ∨ sb.length.toNat + data.length ≤ sb.buf.size := by
  have count : (1024 : UInt32).toNat = 1024 := rfl
  have tooSmall : ¬ sb.allocateLen ≥ 1024 := by
    intro enough
    have large := UInt32.le_iff_toNat_le.mp enough
    rw [count] at large
    omega
  have tight : sb.remailAllocLen ≤ 64 := by
    rw [UInt32.le_iff_toNat_le, remailAllocLen_toNat]
    exact little
  have aligned : alignment 1024 = 1024 := by decide
  have grows : makeRoom m sb = (sb.reallocMem m 1024).map (·.2) := if_pos tight
  rw [reallocMem, if_neg tooSmall] at grows
  simp only [aligned, count] at grows
  -- Without a new block, only the counter of the capacity is changed.
  have counterOnly : makeRoom m sb = some { sb with allocateLen := 1024 } →
      (KeepsAll m wantsAtZero sb data ↔ sb.length.toNat + data.length < 1024 ∧
        (data = [] ∨ sb.length.toNat + data.length ≤ sb.buf.size)) := by
    intro made
    have later := @ends_large m wantsAtZero { sb with allocateLen := 1024 } data (Nat.le_refl _)
    have turn := @readSslData_roomy m wantsAtZero sb data _ made (makeRoom_large (Nat.le_refl _))
    rw [KeepsAll, Ends, turn]
    refine later.trans (and_congr_right fun _ => and_iff_right ?_)
    show 1024 - sb.length.toNat < 0x80000000
    omega
  cases answer : m.alloc 1024 with
  | none =>
    rw [answer] at grows
    simpa using counterOnly grows
  | some cells =>
    have size := Allocator.size_alloc answer
    rw [answer] at grows
    simp only [Option.isSome_some, if_true]
    by_cases above : sb.length > 1024
    · simp only [if_pos above, Option.map_some] at grows
      rw [counterOnly grows]
      have long := UInt32.lt_iff_toNat_lt.mp above
      rw [count] at long
      omega
    · simp only [if_neg above] at grows
      have below : sb.length.toNat ≤ 1024 := UInt32.le_iff_toNat_le.mp (UInt32.not_lt.mp above)
      by_cases inside : sb.length.toNat ≤ sb.buf.size
      · have held : sb.bytes.length = sb.length.toNat := by
          rw [Block.size] at inside
          rw [bytes, List.length_take]
          omega
        have read : sb.buf.read 0 sb.length.toNat = some sb.bytes := Block.read_eq (by omega)
        obtain ⟨moved, done, size', cells'⟩ :=
          @Block.write_spec _ (some cells) 0 sb.bytes (by omega)
        have made : makeRoom m sb = some { sb with buf := moved, allocateLen := 1024 } := by
          rw [grows, read]
          simp only [Option.bind_eq_bind, Option.bind_some, done, Option.map_some]
        have same : bytes { sb with buf := moved, allocateLen := 1024 } = sb.bytes := by
          show (moved.getD []).take sb.length.toNat = sb.bytes
          rw [cells', List.take_zero, List.nil_append, List.take_left' held]
        have later := @ends_large m wantsAtZero { sb with buf := moved, allocateLen := 1024 } data
          (Nat.le_refl _)
        have turn := @readSslData_roomy m wantsAtZero sb data _ made
          (makeRoom_large (Nat.le_refl _))
        rw [KeepsAll, same] at later
        rw [KeepsAll, Ends, turn]
        refine later.trans ?_
        have isRoom : room { sb with buf := moved, allocateLen := 1024 } =
          1024 - sb.length.toNat := rfl
        simp only [count, isRoom, size', size]
        omega
      · -- What the buffer is said to hold is not all in its block.
        have undefined : makeRoom m sb = none := by
          have unread : sb.buf.read 0 sb.length.toNat = none := by
            rw [Block.read, if_neg (by omega), if_neg (by omega)]
          rw [grows, unread]
          rfl
        refine iff_of_false (fun ends => ?_) fun ends => inside ends.2
        obtain ⟨result, same, _⟩ := ends
        rw [readSslData, undefined] at same
        cases same

/-- What is read before a small buffer grows. -/
def readBefore (sb : StringBuf) (count : Nat) : Nat :=
  if room sb ≤ 64 then 0 else min count (room sb)

/--
There is room for the data, and one byte more.

The room is that of 1024 bytes where the buffer was smaller, which it has to be able to grow to,
unless its block is large enough as it is.
-/
structure Roomy (m : Allocator UInt8) (sb : StringBuf) (count : Nat) : Prop where
  ends : sb.length.toNat + count < max sb.allocateLen.toNat 1024
  counted : room sb < 0x80000000
  stored : if sb.allocateLen.toNat < 1024 ∧ room sb ≤ count + 64 ∧ (m.alloc 1024).isSome then
    sb.length.toNat + readBefore sb count ≤ sb.buf.size
    else count = 0 ∨ sb.length.toNat + count ≤ sb.buf.size

/-- With more room in a small buffer, it is read into first. -/
theorem ends_wide (small : sb.allocateLen.toNat < 1024) (wide : 64 < room sb) :
    KeepsAll m wantsAtZero sb data ↔ Roomy m sb data.length := by
  have isRoom : room sb = sb.allocateLen.toNat - sb.length.toNat := rfl
  have notTight : ¬ sb.remailAllocLen ≤ 64 := by
    intro tight
    have bound := UInt32.le_iff_toNat_le.mp tight
    rw [remailAllocLen_toNat] at bound
    exact absurd bound (Nat.not_le.mpr wide)
  have enough : makeRoom m sb = some sb := if_neg notTight
  have inRange : 0 < room sb ∧ room sb < 0x80000000 := by omega
  have before : readBefore sb data.length = min data.length (room sb) := if_neg (by omega)
  by_cases none_ : data = []
  · subst none_
    rw [KeepsAll, ends_last enough (.inl rfl), List.append_nil]
    refine iff_of_true ⟨inRange.1, inRange.2, rfl⟩ ⟨?_, inRange.2, ?_⟩
    · simp only [List.length_nil]
      omega
    · simp only [List.length_nil]
      rw [if_neg (by omega)]
      exact .inl trivial
  · have positive := List.length_pos_iff.mpr none_
    by_cases fits : sb.length.toNat + min data.length (room sb) ≤ sb.buf.size
    · obtain ⟨filled, length, capacity', size, bytes, goesOn⟩ :=
        (@ends_turn m wantsAtZero sb data (sb.bytes ++ data) enough inRange none_).1 fits
      have isRoom' : room filled = sb.allocateLen.toNat - filled.length.toNat := by
        rw [room, capacity']
      have rest : (data.drop (room sb)).length = data.length - room sb := List.length_drop
      rw [KeepsAll, goesOn, ← bytes]
      by_cases little : room filled ≤ 64
      · have grown := @ends_grown m wantsAtZero filled (data.drop (room sb))
          (by rw [capacity']; exact small) little
        rw [← List.length_eq_zero_iff, rest, length, size] at grown
        refine grown.trans ⟨fun ends => ?_, fun roomy => ?_⟩
        · refine ⟨by omega, inRange.2, ?_⟩
          rw [before]
          have stored := ends.2
          by_cases answers : (m.alloc 1024).isSome
          · rw [if_pos ⟨small, by omega, answers⟩]
            exact fits
          · rw [if_neg fun all => answers all.2.2]
            rw [if_neg answers] at stored
            omega
        · have ends := roomy.ends
          have stored := roomy.stored
          refine ⟨by omega, ?_⟩
          by_cases answers : (m.alloc 1024).isSome
          · rw [if_pos answers]
            exact fits
          · rw [if_neg answers]
            rw [if_neg fun all => answers all.2.2] at stored
            omega
      · -- All of it has been read, and there is still room.
        have nothing : data.drop (room sb) = [] := List.drop_of_length_le (by omega)
        have enough' : makeRoom m filled = some filled := if_neg fun tight => little (by
          have bound := UInt32.le_iff_toNat_le.mp tight
          rwa [remailAllocLen_toNat] at bound)
        rw [ends_last enough' (.inl nothing), nothing, List.append_nil]
        refine iff_of_true ⟨by omega, by omega, rfl⟩ ⟨by omega, inRange.2, ?_⟩
        rw [if_neg (by omega)]
        exact .inr (by omega)
    · refine iff_of_false
        ((@ends_turn m wantsAtZero sb data (sb.bytes ++ data) enough inRange none_).2 fits)
          fun roomy => ?_
      have stored := roomy.stored
      rw [before] at stored
      split at stored <;> omega

/-- All data is kept exactly if there is room for it, and one byte more. -/
theorem readSslData_keepsAll_iff (m : Allocator UInt8) (wantsAtZero : Bool) (recvData : StringBuf)
    (available : Bytes) :
    KeepsAll m wantsAtZero recvData available ↔ Roomy m recvData available.length := by
  -- By the size of the buffer: the smaller ones grow first, or fill up before they grow.
  by_cases large : 1024 ≤ recvData.allocateLen.toNat
  · rw [ends_large large, ← List.length_eq_zero_iff]
    constructor
    · intro ends
      refine ⟨by omega, ends.2.1, ?_⟩
      rw [if_neg (by omega)]
      exact ends.2.2
    · intro roomy
      have ends := roomy.ends
      have stored := roomy.stored
      rw [if_neg (by omega)] at stored
      exact ⟨by omega, roomy.counted, stored⟩
  · have small := Nat.lt_of_not_le large
    by_cases little : room recvData ≤ 64
    · have before : readBefore recvData available.length = 0 := if_pos little
      rw [ends_grown small little, ← List.length_eq_zero_iff]
      constructor
      · intro ends
        refine ⟨by omega, by omega, ?_⟩
        rw [before]
        have stored := ends.2
        by_cases answers : (m.alloc 1024).isSome
        · rw [if_pos answers] at stored
          rw [if_pos ⟨small, by omega, answers⟩]
          exact stored
        · rw [if_neg answers] at stored
          rw [if_neg fun all => answers all.2.2]
          exact stored
      · intro roomy
        have ends := roomy.ends
        have stored := roomy.stored
        rw [before] at stored
        refine ⟨by omega, ?_⟩
        by_cases answers : (m.alloc 1024).isSome
        · rw [if_pos answers]
          rw [if_pos ⟨small, by omega, answers⟩] at stored
          exact stored
        · rw [if_neg answers]
          rw [if_neg fun all => answers all.2.2] at stored
          exact stored
    · exact ends_wide small (by omega)

end

/-- A new buffer is full after 1024 bytes, and is read into once more. -/
theorem fullBuffer_read : ¬ ∀ m wantsAtZero recvData available,
    KeepsAll m wantsAtZero recvData available := by
  intro always
  have keeps := always (Allocator.filled 0) true .new (List.replicate 1024 0)
  have ends := ((ends_grown (by decide) (by decide)).mp keeps).1
  rw [List.length_replicate] at ends
  exact absurd ends (by decide)

end OneProxy.NetworkSocket
