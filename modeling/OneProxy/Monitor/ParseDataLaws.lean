import Mathlib
import OneProxy.Monitor.ParseData
import OneProxy.Lib.KeyedObjects
import OneProxy.Lib.Runs

/-! What handling one packet does to the connection table of a `ParseData`. -/

namespace OneProxy.Monitor

open KeyedObjects

variable {σ : Type}

namespace Connection

@[simp] theorem recvData_setRecvData (conn : Connection σ) (side : Side) (bytes : Bytes) :
    (conn.setRecvData side bytes).recvData side = bytes := by
  cases side <;> rfl

@[simp] theorem protocolBase_setRecvData (conn : Connection σ) (side : Side) (bytes : Bytes) :
    (conn.setRecvData side bytes).protocolBase = conn.protocolBase := by
  cases side <;> rfl

end Connection

/-- A connection with its protocol has the buffers it had before. -/
theorem withProtocol_keeps {cfg : ParseConfig σ} {conn with' : Connection σ} {pi : ProgressInfo}
    {base : σ} (done : withProtocol cfg conn pi = some (with', base)) :
    (∀ side, with'.recvData side = conn.recvData side) ∧ with'.protocolBase.isSome := by
  -- The protocol is there already, or is made for the two buffers as they are.
  unfold withProtocol at done
  cases old : conn.protocolBase with
  | some kept =>
    simp only [old, Option.some.injEq, Prod.mk.injEq] at done
    obtain ⟨rfl, rfl⟩ := done
    simp [old]
  | none =>
    cases made : getProtocolBase cfg pi with
    | none => simp [old, made] at done
    | some fresh =>
      simp only [old, made, Option.map_some, Option.some.injEq, Prod.mk.injEq] at done
      obtain ⟨rfl, rfl⟩ := done
      constructor
      · intro side
        cases side <;> rfl
      · rfl

/-- A connection gets no protocol only when it has none and none is found. -/
theorem withProtocol_eq_none {cfg : ParseConfig σ} {conn : Connection σ} {pi : ProgressInfo} :
    withProtocol cfg conn pi = none ↔ conn.protocolBase = none ∧ getProtocolBase cfg pi = none := by
  unfold withProtocol
  cases old : conn.protocolBase <;> simp

/-- Whether a protocol class is registered for a port. -/
def ParseConfig.Registered (cfg : ParseConfig σ) (port : Nat) : Prop :=
  ∃ className, nonEmpty (cfg.portHandleMap port) = some className ∧
    (cfg.getClassByName className).isSome

/-- A class registered for the local port is the one that is found. -/
theorem getProtocolBase_registered {cfg : ParseConfig σ} {pi : ProgressInfo} (port : pi.port ≠ 0)
    (registered : cfg.Registered pi.port) : (getProtocolBase cfg pi).isSome := by
  obtain ⟨className, named, found⟩ := registered
  simp [getProtocolBase, Nat.pos_of_ne_zero port, named, found]

namespace TaskDataT

/-- Packets that reach the connection: neither a bare FIN nor a bare SYN, with a local port. -/
def Uses (tdt : TaskDataT) : Prop :=
  tdt.pi.port ≠ 0 ∧ ¬ (tdt.has thFin ∧ tdt.data.length = 0) ∧
    ¬ (tdt.has thSyn ∧ tdt.data.length = 0)

end TaskDataT

namespace ParseData

/-- The connection table, without what the objects hold. -/
def table (pd : ParseData σ) : Table Bytes := ⟨pd.taskDataConnMap, pd.made⟩

/-- The objects of the table: numbered as they are made, one key each, with a protocol. -/
structure Inv (pd : ParseData σ) : Prop where
  numbered : pd.table.WF
  based : ∀ key id conn, pd.taskDataConnMap key = some id → pd.conns id = some conn →
    conn.protocolBase.isSome
  fresh : ∀ id, pd.made ≤ id → pd.conns id = none

/-- The object under a key, if there is one, has not been freed. -/
def Live (pd : ParseData σ) (key : Bytes) : Prop :=
  ∀ id, pd.taskDataConnMap key = some id → (pd.conns id).isSome

/-- The object that a packet under a key uses. -/
def objectOf (pd : ParseData σ) (key : Bytes) : Nat := pd.table.object key

theorem objectOf_of_none {pd : ParseData σ} {key : Bytes} (absent : pd.taskDataConnMap key = none) :
    pd.objectOf key = pd.made := by
  simp [objectOf, Table.object, table, absent]

theorem objectOf_of_some {pd : ParseData σ} {key : Bytes} {id : Nat}
    (found : pd.taskDataConnMap key = some id) : pd.objectOf key = id := by
  simp [objectOf, Table.object, table, found]

/-- A new `ParseData` has no objects. -/
theorem inv_new : (new : ParseData σ).Inv := by
  constructor
  · constructor <;> simp [new, table]
  · simp [new]
  · simp [new]

/-- What the last part of handling a packet does to the table and to the objects. -/
structure Finished (pd pd' : ParseData σ) (tdt : TaskDataT) (id : Nat) : Prop where
  entry : ∀ key, pd'.taskDataConnMap key =
    if key = tdt.key.cmpKey then
      if tdt.has thFin then none
      else if tdt.protocol = ipprotoUdp then pd.taskDataConnMap key
      else some id
    else pd.taskDataConnMap key
  others : ∀ other, other ≠ id → pd'.conns other = pd.conns other
  freed : tdt.protocol = ipprotoUdp ∨ tdt.has thFin → pd'.conns id = none
  kept : ¬ (tdt.protocol = ipprotoUdp ∨ tdt.has thFin) →
    ∃ conn, pd'.conns id = some conn ∧ conn.protocolBase.isSome
  made : pd'.made = pd.made

end ParseData

/-- What becomes of a packet's data: the protocol sees the buffer, or the buffer is cleared. -/
def handledAs (tdt : TaskDataT) (id : Nat) (sb : Bytes) : Handled :=
  ⟨id, tdt.side, if tdt.tcpFlags ≠ (thAck ||| thFin) ∧ sb ≠ [] then some sb else none⟩

/-- Calling a protocol leaves it in place. -/
theorem callProtocol_protocolBase (cfg : ParseConfig σ) (conn : Connection σ) (base : σ)
    (side : Side) : (callProtocol cfg conn base side).protocolBase.isSome := by
  simp [callProtocol]

/-- Once the object has its data and its protocol, nothing is missing any more. -/
theorem handleData_finished (cfg : ParseConfig σ) (pd : ParseData σ) (tdt : TaskDataT) (id : Nat)
    (conn : Connection σ) (base : σ) (based : conn.protocolBase.isSome) :
    ∃ pd', handleData cfg pd tdt id conn base =
      some (pd', some (handledAs tdt id (conn.recvData tdt.side))) ∧ pd.Finished pd' tdt id := by
  -- Four cases: a UDP datagram or not, the last packet of its direction or not.
  have calls : (decide (tdt.tcpFlags ≠ (thAck ||| thFin) ∧ (conn.recvData tdt.side).length > 0)) =
      decide (tdt.tcpFlags ≠ (thAck ||| thFin) ∧ conn.recvData tdt.side ≠ []) := by
    simp [List.length_pos_iff]
  have left : (if decide (tdt.tcpFlags ≠ (thAck ||| thFin) ∧ conn.recvData tdt.side ≠ []) = true
      then callProtocol cfg conn base tdt.side
      else conn.setRecvData tdt.side []).protocolBase.isSome := by
    split
    · exact callProtocol_protocolBase cfg conn base tdt.side
    · simpa using based
  simp only [handleData, calls]
  generalize (if decide (tdt.tcpFlags ≠ (thAck ||| thFin) ∧ conn.recvData tdt.side ≠ []) = true
      then callProtocol cfg conn base tdt.side else conn.setRecvData tdt.side []) = last at left ⊢
  by_cases udp : tdt.protocol = ipprotoUdp <;> by_cases fin : tdt.has thFin
  all_goals
    simp only [udp, fin, ne_eq, not_true_eq_false, not_false_eq_true, if_true, if_false, or_true,
      or_false, ParseData.freeConnection, ParseData.setConn, ParseData.setEntry,
      Option.map_some, decide_eq_true_eq]
    refine ⟨_, rfl, ?_⟩
    constructor <;> simp_all

namespace ParseData

/-- Looking the object up, or making it, leaves the table as it is. -/
@[simp] theorem getConnection_entry (pd : ParseData σ) (it : Option Nat) :
    (pd.getConnection it).2.taskDataConnMap = pd.taskDataConnMap := by
  cases it <;> rfl

/-- The number of the object that is found or made. -/
@[simp] theorem getConnection_fst (pd : ParseData σ) (key : Bytes) :
    (pd.getConnection (pd.taskDataConnMap key)).1 = pd.objectOf key := by
  cases found : pd.taskDataConnMap key with
  | none => simp [getConnection, newConnection, objectOf_of_none found]
  | some id => simp [getConnection, objectOf_of_some found]

/-- A new object is counted. -/
theorem getConnection_made (pd : ParseData σ) (it : Option Nat) :
    (pd.getConnection it).2.made = if it = none then pd.made + 1 else pd.made := by
  cases it <;> simp [getConnection, newConnection]

/-- The other objects are not touched. -/
theorem getConnection_others {pd : ParseData σ} {key : Bytes} {other : Nat}
    (different : other ≠ pd.objectOf key) :
    (pd.getConnection (pd.taskDataConnMap key)).2.conns other = pd.conns other := by
  cases found : pd.taskDataConnMap key with
  | none =>
    have notNew : other ≠ pd.made := by simpa [objectOf_of_none found] using different
    simp [getConnection, newConnection, setConn, notNew]
  | some id => rfl

/-- The object of a packet is there once it is found or made, unless it was freed before. -/
theorem getConnection_live {pd : ParseData σ} (inv : pd.Inv) {key : Bytes} (live : pd.Live key) :
    ∃ conn, (pd.getConnection (pd.taskDataConnMap key)).2.conns (pd.objectOf key) = some conn ∧
      (conn.protocolBase.isSome ↔ (pd.taskDataConnMap key).isSome) := by
  cases found : pd.taskDataConnMap key with
  | none =>
    refine ⟨⟨[], [], none⟩, ?_, by simp⟩
    simp [getConnection, newConnection, setConn, objectOf_of_none found]
  | some id =>
    obtain ⟨conn, there⟩ := Option.isSome_iff_exists.mp (live id found)
    refine ⟨conn, ?_, by simpa using inv.based key id conn found there⟩
    simpa [getConnection, objectOf_of_some found] using there

end ParseData

/-- A packet that reaches its connection is saved there. -/
theorem handleProtocolData_of_uses {cfg : ParseConfig σ} {pd : ParseData σ} {tdt : TaskDataT}
    (uses : tdt.Uses) :
    handleProtocolData cfg pd tdt =
      saveData cfg (pd.getConnection (pd.taskDataConnMap tdt.key.cmpKey)).2 tdt
        (pd.objectOf tdt.key.cmpKey) := by
  obtain ⟨port, notFin, notSyn⟩ := uses
  simp only [handleProtocolData, if_neg port, if_neg notFin, if_neg notSyn,
    ParseData.getConnection_fst]

/-- A packet with a live connection, or with a protocol for a new one, is handled there. -/
theorem handleProtocolData_served {cfg : ParseConfig σ} {pd : ParseData σ} {tdt : TaskDataT}
    (inv : pd.Inv) (uses : tdt.Uses) (live : pd.Live tdt.key.cmpKey)
    (known : (pd.taskDataConnMap tdt.key.cmpKey).isSome ∨ (getProtocolBase cfg tdt.pi).isSome) :
    ∃ pd' sb, handleProtocolData cfg pd tdt =
        some (pd', some (handledAs tdt (pd.objectOf tdt.key.cmpKey) sb)) ∧ tdt.data <:+ sb ∧
      (pd.getConnection (pd.taskDataConnMap tdt.key.cmpKey)).2.Finished pd' tdt
        (pd.objectOf tdt.key.cmpKey) := by
  -- The object is there; it has its protocol already, or gets the one that is found.
  obtain ⟨conn, there, based⟩ := ParseData.getConnection_live inv live
  have found : withProtocol cfg
      (conn.setRecvData tdt.side (conn.recvData tdt.side ++ tdt.data)) tdt.pi ≠ none := by
    intro missing
    obtain ⟨noBase, noClass⟩ := withProtocol_eq_none.mp missing
    rw [Connection.protocolBase_setRecvData] at noBase
    rcases known with entry | fromClass
    · have := based.mpr entry
      simp [noBase] at this
    · simp [noClass] at fromClass
  obtain ⟨⟨with', base⟩, made⟩ := Option.ne_none_iff_exists'.mp found
  obtain ⟨buffers, hasBase⟩ := withProtocol_keeps made
  obtain ⟨pd', done, finished⟩ := handleData_finished cfg
    (pd.getConnection (pd.taskDataConnMap tdt.key.cmpKey)).2 tdt (pd.objectOf tdt.key.cmpKey)
    with' base hasBase
  refine ⟨pd', with'.recvData tdt.side, ?_, ?_, finished⟩
  · rw [handleProtocolData_of_uses uses, saveData, there]
    simp only [Option.bind_some, made]
    exact done
  · rw [buffers, Connection.recvData_setRecvData]
    exact List.suffix_append _ _

/-- A packet without a connection and without a protocol leaves nothing but a number behind. -/
theorem handleProtocolData_unknown {cfg : ParseConfig σ} {pd : ParseData σ} {tdt : TaskDataT}
    (uses : tdt.Uses) (absent : pd.taskDataConnMap tdt.key.cmpKey = none)
    (noClass : getProtocolBase cfg tdt.pi = none) :
    handleProtocolData cfg pd tdt =
      some ({ pd.setConn pd.made none with made := pd.made + 1 }, none) := by
  have missing : ∀ bytes : Bytes,
      withProtocol cfg ((⟨[], [], none⟩ : Connection σ).setRecvData tdt.side bytes) tdt.pi =
          none := by
    intro bytes
    rw [withProtocol_eq_none]
    exact ⟨by simp, noClass⟩
  rw [handleProtocolData_of_uses uses, absent]
  simp only [saveData, ParseData.getConnection, ParseData.newConnection,
    ParseData.objectOf_of_none absent, ParseData.setConn, ParseData.freeConnection, if_true,
      Option.bind_some, missing,
    Option.map_some, Option.some.injEq, Prod.mk.injEq, and_true]
  congr 1
  funext other
  by_cases same : other = pd.made <;> simp [same]

/-- Handling a packet whose connection was freed under it has no defined outcome. -/
theorem handleProtocolData_dangling {cfg : ParseConfig σ} {pd : ParseData σ} {tdt : TaskDataT}
    (uses : tdt.Uses) (dangling : ¬ pd.Live tdt.key.cmpKey) :
    handleProtocolData cfg pd tdt = none := by
  simp only [ParseData.Live, not_forall, Option.not_isSome_iff_eq_none] at dangling
  obtain ⟨id, found, freed⟩ := dangling
  rw [handleProtocolData_of_uses uses, found]
  simp [saveData, ParseData.getConnection, ParseData.objectOf_of_some found, freed]

namespace ParseData

/-- A packet that reaches its connection is one use of its key, if it is no lasting datagram. -/
theorem Finished.table_eq {pd pd' : ParseData σ} {tdt : TaskDataT}
    (finished : (pd.getConnection (pd.taskDataConnMap tdt.key.cmpKey)).2.Finished pd' tdt
      (pd.objectOf tdt.key.cmpKey)) (leaves : tdt.protocol = ipprotoUdp → tdt.has thFin) :
    pd'.table = pd.table.step (.use tdt.key.cmpKey (tdt.has thFin)) := by
  have entries : pd'.taskDataConnMap =
      (pd.table.step (.use tdt.key.cmpKey (tdt.has thFin))).entry := by
    funext key
    rw [finished.entry key]
    by_cases same : key = tdt.key.cmpKey
    · by_cases fin : tdt.has thFin
      · simp [Table.step, Table.set, same, fin]
      · -- Without a FIN the packet is no datagram, so its object stays.
        have notUdp : tdt.protocol ≠ ipprotoUdp := fun udp => fin (leaves udp)
        simp [Table.step, Table.set, same, fin, notUdp, objectOf]
    · simp [Table.step, Table.set, same, table]
  have numbers : pd'.made = (pd.table.step (.use tdt.key.cmpKey (tdt.has thFin))).made := by
    rw [finished.made, getConnection_made]
    rfl
  simp only [table] at entries numbers ⊢
  rw [entries, numbers]

/-- The object of a key is not the object of any other key. -/
theorem Inv.other_object {pd : ParseData σ} (inv : pd.Inv) {key other : Bytes} {id : Nat}
    (found : pd.taskDataConnMap other = some id) (different : other ≠ key) :
    id ≠ pd.objectOf key := by
  intro same
  have alone := inv.numbered.confined_use key false
  have before : (pd.table.step (.use key false)).entry other = some id := by
    simpa [Table.step, Table.set, different, table] using found
  exact different (alone.2 other (before.trans (congrArg some same)))

/-- Handling a packet at its connection keeps the invariant. -/
theorem Finished.inv {pd pd' : ParseData σ} {tdt : TaskDataT} (inv : pd.Inv)
    (finished : (pd.getConnection (pd.taskDataConnMap tdt.key.cmpKey)).2.Finished pd' tdt
      (pd.objectOf tdt.key.cmpKey)) : pd'.Inv := by
  have grows : pd.made ≤ pd'.made ∧ pd.objectOf tdt.key.cmpKey < pd'.made := by
    rw [finished.made, getConnection_made]
    cases found : pd.taskDataConnMap tdt.key.cmpKey with
    | none => simp [objectOf_of_none found]
    | some id =>
      have counted : id < pd.made := inv.numbered.bound _ _ found
      simpa [objectOf_of_some found] using counted
  constructor
  · by_cases udp : tdt.protocol = ipprotoUdp ∧ ¬ tdt.has thFin
    · -- A datagram leaves the table alone, whatever becomes of the object.
      have same : pd'.taskDataConnMap = pd.taskDataConnMap := by
        funext key
        rw [finished.entry key]
        by_cases own : key = tdt.key.cmpKey <;> simp [own, udp.1, udp.2]
      constructor
      · intro key id found
        have := inv.numbered.bound key id (by simpa [table, same] using found)
        exact Nat.lt_of_lt_of_le this grows.1
      · intro key other id found again
        exact inv.numbered.single key other id (by simpa [table, same] using found)
          (by simpa [table, same] using again)
    · -- Any other packet is a use of the key in the table.
      have leaves : tdt.protocol = ipprotoUdp → tdt.has thFin := by
        intro isUdp
        by_contra noFin
        exact udp ⟨isUdp, noFin⟩
      rw [finished.table_eq leaves]
      exact inv.numbered.step _
  · intro key id conn found there
    by_cases own : id = pd.objectOf tdt.key.cmpKey
    · subst own
      by_cases gone : tdt.protocol = ipprotoUdp ∨ tdt.has thFin
      · simp [finished.freed gone] at there
      · obtain ⟨conn', there', based⟩ := finished.kept gone
        rw [there', Option.some.injEq] at there
        exact there ▸ based
    · rw [finished.others id own, getConnection_others own] at there
      have before : pd.taskDataConnMap key = some id := by
        rw [finished.entry key] at found
        split at found
        · split at found
          · simp at found
          · split at found
            · simpa using found
            · exact absurd (Option.some.inj found).symm own
        · simpa using found
      exact inv.based key id conn before there
  · intro id large
    have other : id ≠ pd.objectOf tdt.key.cmpKey := by omega
    rw [finished.others id other, getConnection_others other]
    exact inv.fresh id (by omega)

/-- Except for datagrams, handling a packet frees no object that a key still has. -/
theorem Finished.live {pd pd' : ParseData σ} {tdt : TaskDataT} (inv : pd.Inv)
    (finished : (pd.getConnection (pd.taskDataConnMap tdt.key.cmpKey)).2.Finished pd' tdt
      (pd.objectOf tdt.key.cmpKey)) (notUdp : tdt.protocol ≠ ipprotoUdp) {key : Bytes}
    (live : pd.Live key) : pd'.Live key := by
  intro id found
  rw [finished.entry key] at found
  by_cases same : key = tdt.key.cmpKey
  · by_cases fin : tdt.has thFin
    · simp [same, fin] at found
    · simp only [same, if_true, fin, if_false, notUdp, Option.some.injEq] at found
      obtain ⟨conn, there, _⟩ := finished.kept (by simp [notUdp, fin])
      rw [← found, there]
      rfl
  · have before : pd.taskDataConnMap key = some id := by simpa [same] using found
    have other : id ≠ pd.objectOf tdt.key.cmpKey := inv.other_object before same
    rw [finished.others id other, getConnection_others other]
    exact live id before

/-- Forgetting the object of a key keeps the invariant. -/
theorem Inv.close {pd : ParseData σ} (inv : pd.Inv) (key : Bytes) (id : Nat) :
    ((pd.setEntry key none).setConn id none).Inv := by
  constructor
  · exact inv.numbered.step (.close key)
  · intro other found conn entry there
    by_cases same : other = key
    · simp [setEntry, setConn, same] at entry
    · by_cases freed : found = id
      · simp [setConn, freed] at there
      · exact inv.based other found conn (by simpa [setEntry, setConn, same] using entry)
          (by simpa [setEntry, setConn, freed] using there)
  · intro other large
    by_cases freed : other = id
    · simp [setConn, freed]
    · simpa [setConn, setEntry, freed] using inv.fresh other large

/-- Making an object that is freed at once keeps the invariant. -/
theorem Inv.skip {pd : ParseData σ} (inv : pd.Inv) :
    ({ pd.setConn pd.made none with made := pd.made + 1 } : ParseData σ).Inv := by
  have absent := inv.fresh pd.made (Nat.le_refl _)
  have same : (pd.setConn pd.made none).conns = pd.conns := by
    funext other
    by_cases new : other = pd.made <;> simp [setConn, new, absent]
  constructor
  · constructor
    · intro key id found
      have counted : id < pd.made := inv.numbered.bound key id found
      exact Nat.lt_succ_of_lt counted
    · intro key other id found again
      exact inv.numbered.single key other id found again
  · intro key id conn found there
    exact inv.based key id conn found (by simpa [same] using there)
  · intro id large
    simpa [same] using inv.fresh id (Nat.le_of_succ_le large)

end ParseData

/-- Every packet that is handled at all leaves the invariant in place. -/
theorem handleProtocolData_inv {cfg : ParseConfig σ} {pd pd' : ParseData σ} {tdt : TaskDataT}
    {handled : Option Handled} (inv : pd.Inv)
    (done : handleProtocolData cfg pd tdt = some (pd', handled)) : pd'.Inv := by
  -- The cases of the source: no port, a bare FIN, a bare SYN, and a packet for the connection.
  by_cases uses : tdt.Uses
  · by_cases live : pd.Live tdt.key.cmpKey
    · by_cases known : (pd.taskDataConnMap tdt.key.cmpKey).isSome ∨
          (getProtocolBase cfg tdt.pi).isSome
      · obtain ⟨next, sb, served, _, finished⟩ := handleProtocolData_served inv uses live known
        rw [served, Option.some.injEq, Prod.mk.injEq] at done
        exact done.1 ▸ finished.inv inv
      · simp only [not_or, Option.not_isSome_iff_eq_none] at known
        rw [handleProtocolData_unknown uses known.1 known.2, Option.some.injEq,
          Prod.mk.injEq] at done
        exact done.1 ▸ inv.skip
    · simp [handleProtocolData_dangling uses live] at done
  · simp only [handleProtocolData] at done
    split at done
    · simp only [Option.some.injEq, Prod.mk.injEq] at done
      exact done.1 ▸ inv
    · rename_i port
      split at done
      · cases found : pd.taskDataConnMap tdt.key.cmpKey with
        | none =>
          simp only [found, Option.some.injEq, Prod.mk.injEq] at done
          exact done.1 ▸ inv
        | some id =>
          simp only [found, ParseData.freeConnection, Option.map_map,
            Option.map_eq_some_iff] at done
          obtain ⟨conn, _, same⟩ := done
          simp only [Function.comp_apply, Prod.mk.injEq] at same
          exact same.1 ▸ inv.close tdt.key.cmpKey id
      · rename_i notFin
        split at done
        · simp only [Option.some.injEq, Prod.mk.injEq] at done
          exact done.1 ▸ inv
        · rename_i notSyn
          exact absurd ⟨port, notFin, notSyn⟩ uses

/-- The same, for a packet as it comes from the list. -/
theorem handleTaskData_inv {cfg : ParseConfig σ} {pd pd' : ParseData σ} {taskData : TaskDataT}
    {handled : Option Handled} (inv : pd.Inv)
    (done : handleTaskData cfg pd taskData = some (pd', handled)) : pd'.Inv := by
  simp only [handleTaskData] at done
  split at done
  · exact handleProtocolData_inv inv done
  · simp only [Option.some.injEq, Prod.mk.injEq] at done
    exact done.1 ▸ inv

/-- The runs of a `ParseData` over the packets it is given. -/
def parseRuns (cfg : ParseConfig σ) : Runs.System (ParseData σ) TaskDataT :=
  .ofStep (· = ParseData.new) fun pd taskData => (handleTaskData cfg pd taskData).map Prod.fst

/-- The invariant holds in every reachable `ParseData`. -/
theorem inv_of_reachable {cfg : ParseConfig σ} {pd : ParseData σ}
    (reached : Runs.Reachable (parseRuns cfg) pd) : pd.Inv := by
  apply reached.invariant
  · intro start begun
    exact begun ▸ ParseData.inv_new
  · intro before taskData after inv step
    obtain ⟨⟨next, handled⟩, done, same⟩ := Option.map_eq_some_iff.mp step
    exact same ▸ handleTaskData_inv inv done

end OneProxy.Monitor
