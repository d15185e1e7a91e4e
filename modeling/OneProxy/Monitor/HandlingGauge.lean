import OneProxy.Lib.AllAlong
import OneProxy.Monitor.Payload

/-! The gauge of handled connections, and the `Connection` objects that are made and freed. -/

namespace OneProxy.Monitor

variable {σ : Type}

/-- A `ParseData` with its calls of the record, and the objects that it has freed. -/
structure Gauged (σ : Type) where
  pd : ParseData σ
  /-- The calls of `record_startHandingConn`. -/
  started : Nat
  /-- The calls of `record_closeClientConn`. -/
  closed : Nat
  freed : List Nat

namespace Gauged

/-- Nothing has been handled. -/
def new : Gauged σ := ⟨.new, 0, 0, []⟩

/-- What is contributed to `sum_handingClientConn`. -/
def gauge (g : Gauged σ) : Int := g.started - g.closed

/-- `new_connection`. -/
def newConnection (g : Gauged σ) : Nat × Gauged σ :=
  let (id, pd) := g.pd.newConnection
  (id, { g with pd := pd, started := g.started + 1 })

/-- The object to use for a packet: the one that was found, or else a new one. -/
def getConnection (g : Gauged σ) (it : Option Nat) : Nat × Gauged σ :=
  match it with
  | none => g.newConnection
  | some id => (id, g)

/-- `free_connection`. -/
def freeConnection (g : Gauged σ) (id : Nat) : Option (Gauged σ) :=
  (g.pd.freeConnection id).map fun pd => { g with pd := pd, freed := g.freed ++ [id] }

/-- `record_closeClientConn`. -/
def closeClientConn (g : Gauged σ) : Gauged σ := { g with closed := g.closed + 1 }

/-- Whether a packet is the last one that its object is used for. -/
def ends (tdt : TaskDataT) : Prop := tdt.protocol = ipprotoUdp ∨ tdt.has thFin

instance (tdt : TaskDataT) : Decidable (ends tdt) :=
  inferInstanceAs (Decidable (tdt.protocol = ipprotoUdp ∨ tdt.has thFin))

/-- The last part of `handle_protocolData`. -/
def handleData (cfg : ParseConfig σ) (g : Gauged σ) (tdt : TaskDataT) (id : Nat)
    (conn : Connection σ) (base : σ) : Option (Gauged σ) :=
  -- save connection when in tcp.
  let pd := if tdt.protocol ≠ ipprotoUdp then g.pd.setEntry tdt.key.cmpKey (some id) else g.pd
  let sb := conn.recvData tdt.side
  let calls : Bool := tdt.tcpFlags ≠ (thAck ||| thFin) ∧ sb.length > 0
  let conn := if calls then callProtocol cfg conn base tdt.side else conn.setRecvData tdt.side []
  let pd := pd.setConn id (some conn)
  -- close connection
  let pd := if tdt.has thFin then pd.setEntry tdt.key.cmpKey none else pd
  let g := { g with pd := pd }
  if ends tdt then (g.freeConnection id).map closeClientConn else some g

/-- The middle part: an object without a protocol is freed, and its end is not recorded. -/
def saveData (cfg : ParseConfig σ) (g : Gauged σ) (tdt : TaskDataT) (id : Nat) :
    Option (Gauged σ) :=
  (g.pd.conns id).bind fun conn =>
    let conn := conn.setRecvData tdt.side (conn.recvData tdt.side ++ tdt.data)
    match withProtocol cfg conn tdt.pi with
    | none => g.freeConnection id
    | some (conn, base) => handleData cfg g tdt id conn base

/-- `handle_protocolData`, with its calls of the record. -/
def handleProtocolData (cfg : ParseConfig σ) (g : Gauged σ) (tdt : TaskDataT) :
    Option (Gauged σ) :=
  -- no port, no handler.
  if tdt.pi.port = 0 then some g
  else
    let it := g.pd.taskDataConnMap tdt.key.cmpKey
    if tdt.has thFin ∧ tdt.data.length = 0 then
      -- conn closed.
      match it with
      | none => some g
      | some id =>
        (({ g with pd := g.pd.setEntry tdt.key.cmpKey none }).freeConnection id).map closeClientConn
    else if tdt.has thSyn ∧ tdt.data.length = 0 then some g
    else
      let (id, g) := g.getConnection it
      saveData cfg g tdt id

/-- A `Connection` is in the table and has not been freed, or it is not and has been freed once. -/
def Held (g : Gauged σ) (id : Nat) : Prop :=
  ((∃ key, g.pd.taskDataConnMap key = some id) ∧ g.freed.count id = 0) ∨
    ((∀ key, g.pd.taskDataConnMap key ≠ some id) ∧ g.freed.count id = 1)

/-- The keys with an object. -/
def openKeys (pd : ParseData σ) : Set Bytes := {key | (pd.taskDataConnMap key).isSome}

/-- The gauge is the number of connections in the table, and every connection made is held. -/
structure Balanced (g : Gauged σ) : Prop where
  gauge : g.gauge = (openKeys g.pd).ncard
  held : ∀ id < g.pd.made, g.Held id

/--
A packet that keeps the balance: one for a new connection finds a protocol, and a datagram that is
not marked as the last one has no connection in the table.
-/
def Accounted (cfg : ParseConfig σ) (pd : ParseData σ) (tdt : TaskDataT) : Prop :=
  tdt.Uses →
    (pd.taskDataConnMap tdt.key.cmpKey = none → (getProtocolBase cfg tdt.pi).isSome) ∧
      (tdt.protocol = ipprotoUdp → ¬ tdt.has thFin → pd.taskDataConnMap tdt.key.cmpKey = none)

/-! ## What one packet adds to the books -/

variable {cfg : ParseConfig σ} {g : Gauged σ} {tdt : TaskDataT}

/-- The last part frees the object, and records it, after the last packet. -/
theorem handleData_eq (id : Nat) (conn : Connection σ) (base : σ) :
    handleData cfg g tdt id conn base = (Monitor.handleData cfg g.pd tdt id conn base).map fun p =>
      { g with
        pd := p.1
        closed := if ends tdt then g.closed + 1 else g.closed
        freed := if ends tdt then g.freed ++ [id] else g.freed } := by
  by_cases last : ends tdt
  · have last' : tdt.protocol = ipprotoUdp ∨ tdt.has thFin := last
    simp only [handleData, Monitor.handleData, if_pos last, if_pos last', freeConnection,
      Option.map_map]
    rfl
  · have last' : ¬ (tdt.protocol = ipprotoUdp ∨ tdt.has thFin) := last
    simp only [handleData, Monitor.handleData, if_neg last, if_neg last', Option.map_some]

/-- Where the last part gets to its end, the packet was handled. -/
theorem handled_of_handleData {pd : ParseData σ} {id : Nat} {conn : Connection σ} {base : σ}
    {p : ParseData σ × Option Handled}
    (done : Monitor.handleData cfg pd tdt id conn base = some p) : p.2.isSome := by
  simp only [Monitor.handleData] at done
  split at done
  · obtain ⟨_, _, rfl⟩ := Option.map_eq_some_iff.mp done
    rfl
  · obtain rfl := Option.some.inj done
    rfl

/-- The middle part frees the object of a packet that is not handled, and does not record it. -/
theorem saveData_eq (id : Nat) :
    saveData cfg g tdt id = (Monitor.saveData cfg g.pd tdt id).map fun p =>
      { g with
        pd := p.1
        closed := if p.2.isSome ∧ ends tdt then g.closed + 1 else g.closed
        freed := if p.2.isSome → ends tdt then g.freed ++ [id] else g.freed } := by
  simp only [saveData, Monitor.saveData, Option.map_bind]
  congr 1
  funext conn
  simp only [Function.comp_apply]
  cases withProtocol cfg (conn.setRecvData tdt.side (conn.recvData tdt.side ++ tdt.data))
      tdt.pi with
  | none =>
    simp only [freeConnection, Option.map_map]
    congr 1
  | some found =>
    obtain ⟨conn', base⟩ := found
    simp only [handleData_eq]
    apply Option.map_congr
    intro p done
    have handled := handled_of_handleData done
    simp [handled]

/-- A packet for its connection: what it adds to the books. -/
theorem handleProtocolData_of_uses (uses : tdt.Uses) :
    handleProtocolData cfg g tdt = (Monitor.handleProtocolData cfg g.pd tdt).map fun p =>
      { pd := p.1
        started :=
          if g.pd.taskDataConnMap tdt.key.cmpKey = none then g.started + 1 else g.started
        closed := if p.2.isSome ∧ ends tdt then g.closed + 1 else g.closed
        freed :=
          if p.2.isSome → ends tdt then g.freed ++ [g.pd.objectOf tdt.key.cmpKey]
          else g.freed } := by
  rw [Monitor.handleProtocolData_of_uses uses]
  obtain ⟨port, notFin, notSyn⟩ := uses
  simp only [handleProtocolData, if_neg port, if_neg notFin, if_neg notSyn]
  cases found : g.pd.taskDataConnMap tdt.key.cmpKey with
  | none =>
    simp only [getConnection, newConnection, saveData_eq, ParseData.getConnection,
      ParseData.objectOf_of_none found, if_true]
    rfl
  | some id =>
    simp only [getConnection, saveData_eq, ParseData.getConnection,
      ParseData.objectOf_of_some found, reduceCtorEq, if_false]

/-- The books are kept beside the table: without them it is the function as it was. -/
theorem handleProtocolData_pd :
    (handleProtocolData cfg g tdt).map pd =
      (Monitor.handleProtocolData cfg g.pd tdt).map Prod.fst := by
  by_cases uses : tdt.Uses
  · rw [handleProtocolData_of_uses uses, Option.map_map]
    rfl
  · simp only [handleProtocolData, Monitor.handleProtocolData]
    split
    · rfl
    · next port =>
      split
      · cases g.pd.taskDataConnMap tdt.key.cmpKey with
        | none => rfl
        | some id =>
          simp only [freeConnection, Option.map_map]
          rfl
      · next notFin =>
        split
        · rfl
        · next notSyn => exact absurd ⟨port, notFin, notSyn⟩ uses

/-! ## The balance -/

/-- The books of a run: the invariant of the table, and the objects that are left. -/
structure Kept (g : Gauged σ) : Prop where
  inv : g.pd.Inv
  live : ∀ id < g.pd.made, (g.pd.conns id).isSome ↔ g.freed.count id = 0
  made : ∀ id ∈ g.freed, id < g.pd.made

/-- Only as many keys as objects have one. -/
theorem finite_openKeys {pd : ParseData σ} (inv : pd.Inv) : (openKeys pd).Finite := by
  -- The object of a key tells the key.
  refine Set.Finite.of_finite_image (f := fun key => (pd.taskDataConnMap key).getD 0)
    ((Finset.range (pd.made + 1)).finite_toSet.subset ?_) ?_
  · rintro id ⟨key, _, rfl⟩
    cases found : pd.taskDataConnMap key with
    | none => simp [found]
    | some id =>
      have bound : id < pd.made := inv.numbered.bound key id found
      simpa [found] using bound.le
  · intro key opened other opened' same
    obtain ⟨id, found⟩ := Option.isSome_iff_exists.mp opened
    obtain ⟨id', found'⟩ := Option.isSome_iff_exists.mp opened'
    simp only [found, found', Option.getD_some] at same
    exact inv.numbered.single key other id found (same ▸ found')

/-- Where every object is held, the objects in the table are there. -/
theorem Balanced.live (balanced : g.Balanced) (kept : g.Kept) (key : Bytes) : g.pd.Live key := by
  intro id found
  have bound := kept.inv.numbered.bound key id found
  rcases balanced.held id bound with ⟨_, once⟩ | ⟨gone, _⟩
  · exact (kept.live id bound).mpr once
  · exact absurd found (gone key)

/-- The number of keys with an object, where only one key may have changed. -/
theorem ncard_openKeys {pd pd' : ParseData σ} (inv : pd.Inv) (inv' : pd'.Inv) {key : Bytes}
    (others : ∀ other, other ≠ key → pd'.taskDataConnMap other = pd.taskDataConnMap other) :
    ((openKeys pd').ncard : Int) + (if (pd.taskDataConnMap key).isSome then 1 else 0) =
      (openKeys pd).ncard + (if (pd'.taskDataConnMap key).isSome then 1 else 0) := by
  -- The keys with an object are the others, and this one if it has one.
  have counted : ∀ {q : ParseData σ}, q.Inv → ((openKeys q).ncard : Int) =
      (openKeys q \ {key}).ncard + (if (q.taskDataConnMap key).isSome then 1 else 0) := by
    intro q qInv
    by_cases opened : (q.taskDataConnMap key).isSome
    · have member : key ∈ openKeys q := opened
      rw [if_pos opened, ← Set.ncard_sdiff_singleton_add_one member (finite_openKeys qInv)]
      push_cast
      rfl
    · have outside : key ∉ openKeys q := opened
      rw [if_neg opened, Set.sdiff_singleton_eq_self outside, add_zero]
  have rest : openKeys pd' \ {key} = openKeys pd \ {key} := by
    ext other
    simp only [openKeys, Set.mem_sdiff, Set.mem_ofPred_eq, Set.mem_singleton_iff]
    constructor
    · rintro ⟨opened, different⟩
      exact ⟨others other different ▸ opened, different⟩
    · rintro ⟨opened, different⟩
      exact ⟨(others other different).symm ▸ opened, different⟩
  rw [counted inv, counted inv', rest]
  ring

/-- The object of a packet has not been freed before, where every object is held. -/
theorem Balanced.count_object (balanced : g.Balanced) (kept : g.Kept) (key : Bytes) :
    g.freed.count (g.pd.objectOf key) = 0 := by
  rw [List.count_eq_zero]
  cases found : g.pd.taskDataConnMap key with
  | none =>
    rw [ParseData.objectOf_of_none found]
    intro member
    exact Nat.lt_irrefl _ (kept.made _ member)
  | some id =>
    rw [ParseData.objectOf_of_some found, ← List.count_eq_zero]
    have bound := kept.inv.numbered.bound key id found
    exact (kept.live id bound).mp (balanced.live kept key id found)

/-- A packet with a live connection, or with a protocol for a new one: what it adds to the books. -/
theorem handleProtocolData_served (kept : g.Kept) (balanced : g.Balanced) (uses : tdt.Uses)
    (known : (g.pd.taskDataConnMap tdt.key.cmpKey).isSome ∨ (getProtocolBase cfg tdt.pi).isSome) :
    ∃ g', handleProtocolData cfg g tdt = some g' ∧
      (g.pd.getConnection (g.pd.taskDataConnMap tdt.key.cmpKey)).2.Finished g'.pd tdt
        (g.pd.objectOf tdt.key.cmpKey) ∧
      g'.started =
        (if g.pd.taskDataConnMap tdt.key.cmpKey = none then g.started + 1 else g.started) ∧
      g'.closed = (if ends tdt then g.closed + 1 else g.closed) ∧
      g'.freed =
        if ends tdt then g.freed ++ [g.pd.objectOf tdt.key.cmpKey] else g.freed := by
  obtain ⟨pd', sb, done, _, finished⟩ :=
    @Monitor.handleProtocolData_served _ cfg g.pd tdt kept.inv uses (balanced.live kept _) known
  refine ⟨_, by rw [handleProtocolData_of_uses uses, done]; rfl, finished, rfl, ?_, ?_⟩
  · simp
  · simp

/-- What a packet leaves in the table is what the function as it was leaves. -/
theorem inv_of_handled {g' : Gauged σ} (kept : g.Kept)
    (done : handleProtocolData cfg g tdt = some g') : g'.pd.Inv := by
  have same := @handleProtocolData_pd _ cfg g tdt
  rw [done, Option.map_some] at same
  obtain ⟨⟨pd', handled⟩, before, rfl⟩ := Option.map_eq_some_iff.mp same.symm
  exact handleProtocolData_inv kept.inv before

/-- Every object but the one of a packet is held as it was. -/
theorem Held.of_other {g' : Gauged σ} {id own : Nat} (held : g.Held id) (different : id ≠ own)
    (entries : ∀ key, g'.pd.taskDataConnMap key = some id ↔ g.pd.taskDataConnMap key = some id)
    (freed : g'.freed = g.freed ∨ g'.freed = g.freed ++ [own]) : g'.Held id := by
  have count : g'.freed.count id = g.freed.count id := by
    rcases freed with same | more
    · rw [same]
    · rw [more, List.count_append, List.count_singleton]
      simp [Ne.symm different]
  rcases held with ⟨⟨key, found⟩, once⟩ | ⟨gone, once⟩
  · exact Or.inl ⟨⟨key, (entries key).mpr found⟩, count.trans once⟩
  · exact Or.inr ⟨fun key found => gone key ((entries key).mp found), count.trans once⟩

/-- A bare FIN takes its connection out of the table, frees it and records its end. -/
theorem bareFin_spec (kept : g.Kept) (balanced : g.Balanced) {key : Bytes} {id : Nat}
    (found : g.pd.taskDataConnMap key = some id) :
    ∃ g', (({ g with pd := g.pd.setEntry key none } : Gauged σ).freeConnection id).map
        closeClientConn = some g' ∧ g'.Balanced ∧ g'.Kept := by
  obtain ⟨conn, there⟩ := Option.isSome_iff_exists.mp (balanced.live kept key id found)
  have bound := kept.inv.numbered.bound key id found
  have unfreed : g.freed.count id = 0 := by
    have zero := balanced.count_object kept key
    rwa [ParseData.objectOf_of_some found] at zero
  have inv' := kept.inv.close key id
  refine ⟨⟨(g.pd.setEntry key none).setConn id none, g.started, g.closed + 1, g.freed ++ [id]⟩,
    ?_, ⟨?_, ?_⟩, ⟨inv', ?_, ?_⟩⟩
  · simp [freeConnection, ParseData.freeConnection, ParseData.setEntry, there, closeClientConn]
  · -- The gauge falls by one as the table loses one key.
    have size := @ncard_openKeys _ _ _ kept.inv inv' key (by
      intro other different
      simp [ParseData.setEntry, ParseData.setConn, different])
    have closed : (((g.pd.setEntry key none).setConn id none).taskDataConnMap key).isSome =
        false := by
      simp [ParseData.setEntry, ParseData.setConn]
    have before := balanced.gauge
    simp only [gauge] at before
    simp only [found, closed, Option.isSome_some, if_true, Bool.false_eq_true, if_false] at size
    simp only [gauge]
    push_cast
    omega
  · -- The other objects keep their places; this one is freed, for the first time.
    intro other bound'
    by_cases own : other = id
    · subst own
      refine Or.inr ⟨?_, by simp [List.count_append, unfreed]⟩
      intro other' again
      by_cases same : other' = key
      · simp [ParseData.setEntry, ParseData.setConn, same] at again
      · have again' : g.pd.taskDataConnMap other' = some other := by
          simpa [ParseData.setEntry, ParseData.setConn, same] using again
        exact same (kept.inv.numbered.single _ _ _ again' found)
    · refine (balanced.held other bound').of_other own ?_ (Or.inr rfl)
      intro other'
      by_cases same : other' = key
      · subst same
        simp only [ParseData.setEntry, ParseData.setConn, if_true, reduceCtorEq, found,
          Option.some.injEq, false_iff]
        exact fun equal => own equal.symm
      · simp [ParseData.setEntry, ParseData.setConn, same]
  · intro other bound'
    by_cases own : other = id
    · subst own
      simp [ParseData.setConn, List.count_append]
    · have live := kept.live other bound'
      simpa [ParseData.setConn, ParseData.setEntry, own, List.count_append, List.count_singleton,
        Ne.symm own] using live
  · intro other member
    rcases List.mem_append.mp member with before | own
    · exact kept.made other before
    · rw [List.mem_singleton.mp own]
      exact bound

/-- A packet for a new connection without a protocol leaves one too many in the gauge. -/
theorem unknown_not_balanced (balanced : g.Balanced) (uses : tdt.Uses)
    (absent : g.pd.taskDataConnMap tdt.key.cmpKey = none)
    (noClass : getProtocolBase cfg tdt.pi = none) {g' : Gauged σ}
    (done : handleProtocolData cfg g tdt = some g') : ¬ g'.Balanced := by
  rw [handleProtocolData_of_uses uses, handleProtocolData_unknown uses absent noClass] at done
  obtain rfl := Option.some.inj done
  intro after
  have before := balanced.gauge
  have now := after.gauge
  have same : openKeys ({ g.pd.setConn g.pd.made none with made := g.pd.made + 1 } : ParseData σ) =
      openKeys g.pd := rfl
  simp only [gauge, absent, if_true, Option.isSome_none, Bool.false_eq_true, false_and,
    if_false, same] at before now
  push_cast at now
  omega

/-- The entries of the other objects stay, whatever a packet does with its own. -/
theorem entries_of_finished {pd pd' : ParseData σ}
    (finished : (pd.getConnection (pd.taskDataConnMap tdt.key.cmpKey)).2.Finished pd' tdt
      (pd.objectOf tdt.key.cmpKey)) {id : Nat} (different : id ≠ pd.objectOf tdt.key.cmpKey)
    (key : Bytes) : pd'.taskDataConnMap key = some id ↔ pd.taskDataConnMap key = some id := by
  rw [finished.entry key, ParseData.getConnection_entry]
  by_cases same : key = tdt.key.cmpKey
  · have notOwn : pd.taskDataConnMap key ≠ some id := by
      intro found
      rw [same] at found
      exact different (ParseData.objectOf_of_some found).symm
    simp only [same, if_true]
    rw [same] at notOwn
    split
    · simpa using notOwn
    · split
      · rfl
      · simp [notOwn, Ne.symm different]
  · rw [if_neg same]

/-- The books are kept after a packet that is handled at its connection. -/
theorem Kept.served {g' : Gauged σ} (kept : g.Kept) (balanced : g.Balanced)
    (inv' : g'.pd.Inv)
    (finished : (g.pd.getConnection (g.pd.taskDataConnMap tdt.key.cmpKey)).2.Finished g'.pd tdt
      (g.pd.objectOf tdt.key.cmpKey))
    (freed : g'.freed =
      if ends tdt then g.freed ++ [g.pd.objectOf tdt.key.cmpKey] else g.freed) : g'.Kept := by
  have grows : g.pd.made ≤ g'.pd.made ∧ g.pd.objectOf tdt.key.cmpKey < g'.pd.made ∧
      ∀ id < g'.pd.made, id ≠ g.pd.objectOf tdt.key.cmpKey → id < g.pd.made := by
    rw [finished.made, ParseData.getConnection_made]
    cases found : g.pd.taskDataConnMap tdt.key.cmpKey with
    | none =>
      simp only [ParseData.objectOf_of_none found, if_true]
      exact ⟨by omega, by omega, fun id bound other => by omega⟩
    | some id =>
      have bound : id < g.pd.made := kept.inv.numbered.bound _ _ found
      simp only [ParseData.objectOf_of_some found, reduceCtorEq, if_false]
      exact ⟨by omega, bound, fun id bound other => bound⟩
  have unfreed := balanced.count_object kept tdt.key.cmpKey
  refine ⟨inv', ?_, ?_⟩
  · intro id bound
    by_cases own : id = g.pd.objectOf tdt.key.cmpKey
    · subst own
      by_cases last : ends tdt
      · rw [finished.freed last, freed, if_pos last]
        simp [List.count_append]
      · obtain ⟨conn, there, _⟩ := finished.kept last
        rw [there, freed, if_neg last]
        simp [unfreed]
    · have live := kept.live id (grows.2.2 id bound own)
      rw [finished.others id own, ParseData.getConnection_others own, live, freed]
      split
      · simp [List.count_append, Ne.symm own]
      · rfl
  · intro id member
    rw [freed] at member
    have cases : id ∈ g.freed ∨ id = g.pd.objectOf tdt.key.cmpKey := by
      split at member
      · simpa using member
      · exact Or.inl member
    rcases cases with before | own
    · exact Nat.lt_of_lt_of_le (kept.made id before) grows.1
    · rw [own]
      exact grows.2.1

/--
A packet that is handled at its connection keeps the balance if no datagram takes a connection from
the table without its entry.
-/
theorem balanced_served_iff {g' : Gauged σ} (kept : g.Kept) (balanced : g.Balanced)
    (inv' : g'.pd.Inv)
    (finished : (g.pd.getConnection (g.pd.taskDataConnMap tdt.key.cmpKey)).2.Finished g'.pd tdt
      (g.pd.objectOf tdt.key.cmpKey))
    (started : g'.started =
      if g.pd.taskDataConnMap tdt.key.cmpKey = none then g.started + 1 else g.started)
    (closed : g'.closed = if ends tdt then g.closed + 1 else g.closed)
    (freed : g'.freed =
      if ends tdt then g.freed ++ [g.pd.objectOf tdt.key.cmpKey] else g.freed) :
    g'.Balanced ↔ (tdt.protocol = ipprotoUdp → ¬ tdt.has thFin →
      g.pd.taskDataConnMap tdt.key.cmpKey = none) := by
  have size := @ncard_openKeys _ _ _ kept.inv inv' tdt.key.cmpKey (by
    intro other different
    rw [finished.entry other, if_neg different, ParseData.getConnection_entry])
  have own := finished.entry tdt.key.cmpKey
  rw [if_pos rfl, ParseData.getConnection_entry] at own
  have before := balanced.gauge
  simp only [gauge] at before
  constructor
  · intro after udp notFin
    have now := after.gauge
    have last : ends tdt := Or.inl udp
    rw [if_neg notFin, if_pos udp] at own
    rw [own] at size
    simp only [gauge, started, closed, if_pos last] at now
    by_contra entry
    rw [if_neg entry] at now
    push_cast at now
    omega
  · intro spared
    have unfreed := balanced.count_object kept tdt.key.cmpKey
    constructor
    · simp only [gauge, started, closed]
      -- What is started and not closed by this packet is what the key gets.
      by_cases fin : tdt.has thFin
      · have last : ends tdt := Or.inr fin
        rw [if_pos fin] at own
        rw [own] at size
        cases found : g.pd.taskDataConnMap tdt.key.cmpKey with
        | none =>
          simp only [found, if_pos last, Option.isSome_none, Bool.false_eq_true, if_false, if_true]
            at size ⊢
          push_cast
          omega
        | some id =>
          simp only [found, if_pos last, Option.isSome_some, Option.isSome_none,
            Bool.false_eq_true, reduceCtorEq, if_false, if_true] at size ⊢
          push_cast
          omega
      · rw [if_neg fin] at own
        by_cases udp : tdt.protocol = ipprotoUdp
        · have last : ends tdt := Or.inl udp
          have absent := spared udp fin
          rw [if_pos udp] at own
          rw [own] at size
          simp only [absent, if_pos last, Option.isSome_none, Bool.false_eq_true, if_false, if_true]
            at size ⊢
          push_cast
          omega
        · have goesOn : ¬ ends tdt := fun last => last.elim udp fin
          rw [if_neg udp] at own
          rw [own] at size
          cases found : g.pd.taskDataConnMap tdt.key.cmpKey with
          | none =>
            simp only [found, if_neg goesOn, Option.isSome_none, Option.isSome_some,
              Bool.false_eq_true, if_false, if_true] at size ⊢
            push_cast
            omega
          | some id =>
            simp only [found, if_neg goesOn, Option.isSome_some, reduceCtorEq, if_false, if_true]
              at size ⊢
            omega
    · intro id bound
      by_cases self : id = g.pd.objectOf tdt.key.cmpKey
      · subst self
        by_cases last : ends tdt
        · refine Or.inr ⟨?_, by rw [freed, if_pos last]; simp [List.count_append, unfreed]⟩
          intro key found
          have entry := finished.entry key
          rw [ParseData.getConnection_entry] at entry
          by_cases same : key = tdt.key.cmpKey
          · rw [if_pos same] at entry
            by_cases fin : tdt.has thFin
            · rw [if_pos fin, found] at entry
              exact absurd entry (by simp)
            · have udp : tdt.protocol = ipprotoUdp := last.resolve_right fin
              rw [if_neg fin, if_pos udp, same, spared udp fin] at entry
              rw [same, entry] at found
              exact absurd found (by simp)
          · rw [if_neg same, found] at entry
            exact (kept.inv.other_object entry.symm same) rfl
        · refine Or.inl ⟨⟨tdt.key.cmpKey, ?_⟩, by rw [freed, if_neg last]; exact unfreed⟩
          have notFin : ¬ tdt.has thFin := fun fin => last (Or.inr fin)
          have notUdp : tdt.protocol ≠ ipprotoUdp := fun udp => last (Or.inl udp)
          rw [own, if_neg notFin, if_neg notUdp]
      · have bound' : id < g.pd.made := by
          rw [finished.made, ParseData.getConnection_made] at bound
          cases found : g.pd.taskDataConnMap tdt.key.cmpKey with
          | none =>
            rw [ParseData.objectOf_of_none found] at self
            rw [found, if_pos rfl] at bound
            omega
          | some other =>
            rw [found, if_neg (by simp)] at bound
            exact bound
        refine (balanced.held id bound').of_other self
          (entries_of_finished finished self) ?_
        rw [freed]
        split
        · exact Or.inr rfl
        · exact Or.inl rfl

/-- A packet leaves balanced and kept books exactly if it is accounted for. -/
theorem step_iff (kept : g.Kept) (balanced : g.Balanced) :
    ((∃ g', handleProtocolData cfg g tdt = some g' ∧ g'.Balanced) ↔ Accounted cfg g.pd tdt) ∧
      ∀ g', handleProtocolData cfg g tdt = some g' → Accounted cfg g.pd tdt → g'.Kept := by
  by_cases uses : tdt.Uses
  · by_cases known : (g.pd.taskDataConnMap tdt.key.cmpKey).isSome ∨
        (getProtocolBase cfg tdt.pi).isSome
    · obtain ⟨g', done, finished, started, closed, freed⟩ :=
        handleProtocolData_served kept balanced uses known
      have inv' := inv_of_handled kept done
      have spared := balanced_served_iff kept balanced inv' finished started closed freed
      constructor
      · constructor
        · rintro ⟨other, again, after⟩ _
          obtain rfl := Option.some.inj (done.symm.trans again)
          refine ⟨fun absent => known.resolve_left (by simp [absent]), spared.mp after⟩
        · intro accounted
          exact ⟨g', done, spared.mpr (accounted uses).2⟩
      · intro other again _
        obtain rfl := Option.some.inj (done.symm.trans again)
        exact kept.served balanced inv' finished freed
    · -- There is no connection, and no protocol for a new one.
      simp only [not_or, Option.not_isSome_iff_eq_none] at known
      have unaccounted : ¬ Accounted cfg g.pd tdt := by
        intro accounted
        have found := (accounted uses).1 known.1
        simp [known.2] at found
      constructor
      · constructor
        · rintro ⟨g', done, after⟩
          exact absurd after (unknown_not_balanced balanced uses known.1 known.2 done)
        · intro accounted
          exact absurd accounted unaccounted
      · intro _ _ accounted
        exact absurd accounted unaccounted
  · have accounted : Accounted cfg g.pd tdt := fun uses' => absurd uses' uses
    have settled : ∃ g', handleProtocolData cfg g tdt = some g' ∧ g'.Balanced ∧ g'.Kept := by
      simp only [handleProtocolData]
      split
      · exact ⟨g, rfl, balanced, kept⟩
      · next port =>
        split
        · cases found : g.pd.taskDataConnMap tdt.key.cmpKey with
          | none => exact ⟨g, rfl, balanced, kept⟩
          | some id => exact bareFin_spec kept balanced found
        · next notFin =>
          split
          · exact ⟨g, rfl, balanced, kept⟩
          · next notSyn => exact absurd ⟨port, notFin, notSyn⟩ uses
    obtain ⟨g', done, after, kept'⟩ := settled
    constructor
    · exact iff_of_true ⟨g', done, after⟩ accounted
    · intro other again _
      obtain rfl := Option.some.inj (done.symm.trans again)
      exact kept'

/-- A `ParseData` that has handled nothing has its books in order. -/
theorem new_balanced : (new : Gauged σ).Balanced ∧ (new : Gauged σ).Kept := by
  have none : openKeys (ParseData.new : ParseData σ) = ∅ := by
    ext key
    simp [openKeys, ParseData.new]
  constructor
  · constructor
    · simp [new, gauge, none]
    · simp [new, ParseData.new]
  · exact ⟨ParseData.inv_new, by simp [new, ParseData.new], by simp [new]⟩

/-- The books after some packets. -/
def handleAll (cfg : ParseConfig σ) (packets : List TaskDataT) : Option (Gauged σ) :=
  Runs.exec (handleProtocolData cfg) new packets

/-- The books are balanced after every packet exactly if every packet is accounted for. -/
theorem balanced_iff (cfg : ParseConfig σ) (packets : List TaskDataT) :
    (∀ front, front <+: packets → ∃ g, handleAll cfg front = some g ∧ g.Balanced) ↔
      ∀ front tdt, front ++ [tdt] <+: packets →
        ∀ g, handleAll cfg front = some g → Accounted cfg g.pd tdt := by
  obtain ⟨balanced, kept⟩ := (new_balanced : (new : Gauged σ).Balanced ∧ (new : Gauged σ).Kept)
  refine @Runs.allAlong_iff _ _ (handleProtocolData cfg) Balanced Kept
    (fun g tdt => Accounted cfg g.pd tdt) new packets balanced kept ?_ ?_
  · intro _ tdt g _ _ balanced kept
    exact (step_iff kept balanced).1
  · intro _ tdt g g' _ _ balanced kept accounted done
    exact (step_iff kept balanced).2 g' done accounted

/--
For every list of packets, the gauge is the number of connections in the table after each of them,
and each connection made is in the table or has been freed once, exactly if no packet opens a
connection without a protocol and no datagram ends a connection that the table keeps.
-/
theorem handlingGauge_iff (cfg : ParseConfig σ) (packets : List TaskDataT) :
    (∀ front, front <+: packets → ∃ g, handleAll cfg front = some g ∧ g.Balanced) ↔
      ∀ front tdt, front ++ [tdt] <+: packets →
        ∀ g, handleAll cfg front = some g → Accounted cfg g.pd tdt :=
  balanced_iff cfg packets

/-- A packet with one byte of data for port 80, which has no protocol class. -/
def noProtocol : TaskDataT :=
  ⟨(TaskDataKeyT.mk [49] 1000 [50] 80 []).genCmpKey, ⟨80, []⟩, [71], 0x18, ipprotoTcp⟩

/-- The object made for it is freed, while the gauge still counts it. -/
theorem noProtocol_not_balanced :
    ∃ g, handleAll oneProtocol [noProtocol] = some g ∧ ¬ g.Balanced := by
  have run : (handleAll oneProtocol [noProtocol]).isSome := by decide +kernel
  obtain ⟨g, done⟩ := Option.isSome_iff_exists.mp run
  have step : handleProtocolData oneProtocol new noProtocol = some g := by
    simpa [handleAll, Runs.exec] using done
  have uses : noProtocol.Uses := ⟨by decide, by decide, by decide⟩
  exact ⟨g, done, unknown_not_balanced new_balanced.1 uses rfl (by decide) step⟩

end Gauged

end OneProxy.Monitor
