import OneProxy.Monitor.Payload

/-!
One captured TCP session: which of its packets meet in one `Connection`, and when it is let go.
-/

namespace OneProxy.Monitor

open Runs KeyedObjects

variable {σ : Type}

/-- The text a packet's connection is looked up by. -/
def TaskDataT.cmpKey (p : TaskDataT) : Bytes := p.key.genCmpKey.cmpKey

/-- What a TCP packet with a protocol does to the connection table. -/
def TaskDataT.event (p : TaskDataT) : Event Bytes :=
  if p.has thFin ∧ p.data.length = 0 then .close p.cmpKey
  else if p.has thSyn ∧ p.data.length = 0 then .skip
  else .use p.cmpKey (p.has thFin)

/-- Packets with data are uses of their key. -/
theorem TaskDataT.event_of_data {p : TaskDataT} (data : p.data ≠ []) :
    p.event = .use p.cmpKey (p.has thFin) := by
  have filled : p.data.length ≠ 0 := by simpa using data
  simp [TaskDataT.event, filled]

/-- Exactly the packets with a FIN close the key of their direction. -/
theorem TaskDataT.event_closes_iff {p : TaskDataT} {key : Bytes} :
    p.event.Closes key ↔ p.cmpKey = key ∧ p.has thFin := by
  unfold TaskDataT.event
  by_cases fin : p.has thFin
  · by_cases empty : p.data.length = 0 <;> simp [Event.Closes, fin, empty]
  · simp only [fin, false_and, if_false]
    split <;> simp [Event.Closes]

/-- Packets that leave a connection behind: no FIN, and not a SYN without data. -/
def TaskDataT.Lasts (p : TaskDataT) : Prop := ¬ p.has thFin ∧ (p.data ≠ [] ∨ ¬ p.has thSyn)

theorem TaskDataT.event_opens_iff {p : TaskDataT} {key : Bytes} :
    p.event.Opens key ↔ p.cmpKey = key ∧ p.Lasts := by
  unfold TaskDataT.event TaskDataT.Lasts
  by_cases fin : p.has thFin
  · simp only [fin, true_and, not_true_eq_false, false_and, and_false, iff_false]
    split
    · simp [Event.Opens]
    · split <;> simp [Event.Opens]
  · by_cases syn : p.has thSyn <;> by_cases data : p.data = [] <;>
      simp [Event.Opens, fin, syn, data]

/-- The two ends of a TCP session. -/
structure Session where
  clientIp : Bytes
  clientPort : Nat
  serverIp : Bytes
  serverPort : Nat

namespace Session

/-- Packets sent by the client. -/
def FromClient (s : Session) (p : TaskDataT) : Prop :=
  p.ends = ((s.clientIp, s.clientPort), (s.serverIp, s.serverPort))

/-- Packets sent by the server. -/
def FromServer (s : Session) (p : TaskDataT) : Prop :=
  p.ends = ((s.serverIp, s.serverPort), (s.clientIp, s.clientPort))

/-- A packet of the session, with the server's port in `pi.port`. -/
structure Packet (s : Session) (p : TaskDataT) : Prop where
  tcp : p.protocol = ipprotoTcp
  local' : p.pi.port = s.serverPort
  ends : s.FromClient p ∨ s.FromServer p

/-- The key of the client's packets. -/
def clientKey (s : Session) : Bytes :=
  s.clientIp ++ Tool.digits s.clientPort ++ s.serverIp ++ Tool.digits s.serverPort

/-- The key of the server's packets. -/
def serverKey (s : Session) : Bytes :=
  s.serverIp ++ Tool.digits s.serverPort ++ s.clientIp ++ Tool.digits s.clientPort

theorem FromClient.cmpKey {s : Session} {p : TaskDataT} (sent : s.FromClient p) :
    p.cmpKey = s.clientKey := by
  simp only [FromClient, TaskDataT.ends, Prod.mk.injEq] at sent
  obtain ⟨⟨ip, port⟩, ip', port'⟩ := sent
  simp [TaskDataT.cmpKey, TaskDataKeyT.genCmpKey, clientKey, ip, port, ip', port']

theorem FromServer.cmpKey {s : Session} {p : TaskDataT} (sent : s.FromServer p) :
    p.cmpKey = s.serverKey := by
  simp only [FromServer, TaskDataT.ends, Prod.mk.injEq] at sent
  obtain ⟨⟨ip, port⟩, ip', port'⟩ := sent
  simp [TaskDataT.cmpKey, TaskDataKeyT.genCmpKey, serverKey, ip, port, ip', port']

/-- A packet of the session is looked up by one of its two keys. -/
theorem Packet.cmpKey_cases {s : Session} {p : TaskDataT} (packet : s.Packet p) :
    p.cmpKey = s.clientKey ∨ p.cmpKey = s.serverKey :=
  packet.ends.imp FromClient.cmpKey FromServer.cmpKey

/-- Data of the client always goes to the client's buffer. -/
theorem FromClient.side {s : Session} {p : TaskDataT} (packet : s.Packet p)
    (sent : s.FromClient p) : p.side = .client := by
  simp only [FromClient, TaskDataT.ends, Prod.mk.injEq] at sent
  simp [TaskDataT.side, sent.2.2, packet.local']

/-- Data of the server goes to the server's buffer exactly when the two ports differ. -/
theorem FromServer.side_iff {s : Session} {p : TaskDataT} (packet : s.Packet p)
    (sent : s.FromServer p) : p.side = .server ↔ s.clientPort ≠ s.serverPort := by
  simp only [FromServer, TaskDataT.ends, Prod.mk.injEq] at sent
  simp [TaskDataT.side, sent.2.2, packet.local']

end Session

/-- The `ParseData` after a list of packets. -/
def parse (cfg : ParseConfig σ) (pd : ParseData σ) (packets : List TaskDataT) :
    Option (ParseData σ) :=
  exec (fun pd taskData => (handleTaskData cfg pd taskData).map Prod.fst) pd packets

/-- How a packet is handled after some other packets. -/
def HandledAfter (cfg : ParseConfig σ) (pd : ParseData σ) (before : List TaskDataT)
    (p : TaskDataT) (handled : Handled) : Prop :=
  ∃ pd₁ pd₂, parse cfg pd before = some pd₁ ∧ handleTaskData cfg pd₁ p = some (pd₂, some handled)

/-- All data of the session is handled by one object, each direction in its own buffer. -/
def OneConnection (cfg : ParseConfig σ) (s : Session) (pd : ParseData σ)
    (packets : List TaskDataT) : Prop :=
  ∃ conn, ∀ before p after, packets = before ++ p :: after → p.data ≠ [] →
    ∃ handled, HandledAfter cfg pd before p handled ∧ handled.conn = conn ∧
      (s.FromClient p → handled.side = .client) ∧ (s.FromServer p → handled.side = .server)

/-- After each FIN or RST no object is left in the table for the session. -/
def LetGo (cfg : ParseConfig σ) (s : Session) (pd : ParseData σ) (packets : List TaskDataT) :
    Prop :=
  ∀ before p after, packets = before ++ p :: after → p.has thFin ∨ p.has thRst →
    ∃ pd', parse cfg pd (before ++ [p]) = some pd' ∧
      pd'.taskDataConnMap s.clientKey = none ∧ pd'.taskDataConnMap s.serverKey = none

/-- Some packet left a connection under a key, and no packet of its direction had a FIN since. -/
def LeftOpen (packets : List TaskDataT) (key : Bytes) : Prop :=
  ∃ before p after, packets = before ++ p :: after ∧ p.cmpKey = key ∧ p.Lasts ∧
    ∀ later ∈ after, later.cmpKey = key → ¬ later.has thFin

/-- Any two packets with data go in one direction, in which no FIN comes between them. -/
def OneWay (packets : List TaskDataT) : Prop :=
  ∀ before p between q after, packets = before ++ p :: (between ++ q :: after) → p.data ≠ [] →
    q.data ≠ [] → p.cmpKey = q.cmpKey ∧ ∀ r ∈ p :: between, r.cmpKey = p.cmpKey → ¬ r.has thFin

/-- The sessions that the table can keep together and let go. -/
structure Session.Simple (s : Session) (packets : List TaskDataT) : Prop where
  oneWay : OneWay packets
  ports : ∀ p ∈ packets, p.data ≠ [] → s.FromServer p → s.clientPort ≠ s.serverPort
  closed : ∀ before p after, packets = before ++ p :: after → p.has thFin ∨ p.has thRst →
    ¬ LeftOpen (before ++ [p]) s.clientKey ∧ ¬ LeftOpen (before ++ [p]) s.serverKey

/-- What is open in the table is what the packets left open. -/
theorem openAfter_iff (packets : List TaskDataT) (key : Bytes) :
    OpenAfter (packets.map TaskDataT.event) key ↔ LeftOpen packets key := by
  constructor
  · intro ⟨before, e, after, whole, opens, stays⟩
    obtain ⟨front, rest, rfl, rfl, tail⟩ := List.map_eq_append_iff.mp whole
    obtain ⟨p, back, rfl, rfl, rfl⟩ := List.map_eq_cons_iff.mp tail
    obtain ⟨same, lasts⟩ := TaskDataT.event_opens_iff.mp opens
    refine ⟨front, p, back, rfl, same, lasts, ?_⟩
    intro later member own fin
    exact stays _ (List.mem_map_of_mem member) (TaskDataT.event_closes_iff.mpr ⟨own, fin⟩)
  · intro ⟨before, p, after, whole, same, lasts, stays⟩
    refine ⟨before.map TaskDataT.event, p.event, after.map TaskDataT.event, by simp [whole],
      TaskDataT.event_opens_iff.mpr ⟨same, lasts⟩, ?_⟩
    intro later member closes
    obtain ⟨q, inside, rfl⟩ := List.mem_map.mp member
    obtain ⟨own, fin⟩ := TaskDataT.event_closes_iff.mp closes
    exact stays q inside own fin

/-- A `ParseData` in which the objects of a session's two keys are not freed behind its back. -/
structure Ready (s : Session) (pd : ParseData σ) : Prop where
  inv : pd.Inv
  client : pd.Live s.clientKey
  server : pd.Live s.serverKey

namespace Ready

/-- The object under the key of a packet of the session is not freed. -/
theorem live {s : Session} {pd : ParseData σ} (ready : Ready s pd) {p : TaskDataT}
    (packet : s.Packet p) : pd.Live p.cmpKey := by
  rcases packet.cmpKey_cases with client | server
  · exact client ▸ ready.client
  · exact server ▸ ready.server

end Ready

/-- Closing a key frees no object that another key still has. -/
theorem ParseData.Inv.live_close {pd : ParseData σ} (inv : pd.Inv) {key : Bytes} {id : Nat}
    (found : pd.taskDataConnMap key = some id) {other : Bytes} (live : pd.Live other) :
    ((pd.setEntry key none).setConn id none).Live other := by
  intro id' entry
  by_cases same : other = key
  · simp [setEntry, setConn, same] at entry
  · have before : pd.taskDataConnMap other = some id' := by
      simpa [setEntry, setConn, same] using entry
    have different : id' ≠ id := by
      intro equal
      exact same (inv.numbered.single other key id (equal ▸ before) found)
    simpa [setConn, setEntry, different] using live id' before

section Runs

variable {cfg : ParseConfig σ} {s : Session}

/--
A packet of the session is one event of the table, and its data is handled by the key's object.
-/
theorem session_step (local' : s.serverPort ≠ 0) (registered : cfg.Registered s.serverPort)
    {pd : ParseData σ} (ready : Ready s pd) {p : TaskDataT} (packet : s.Packet p) :
    ∃ pd' handled, handleTaskData cfg pd p = some (pd', handled) ∧ Ready s pd' ∧
      pd'.table = pd.table.step p.event ∧
      (p.data ≠ [] → ∃ h, handled = some h ∧ h.conn = pd.table.object p.cmpKey ∧
        h.side = p.side) := by
  have port : (completeTask cfg p).pi.port ≠ 0 := by simpa [completeTask,
    packet.local'] using local'
  have classed : (getProtocolBase cfg (completeTask cfg p).pi).isSome := by
    apply getProtocolBase_registered port
    simpa [completeTask, packet.local'] using registered
  have sameKey : (completeTask cfg p).key.cmpKey = p.cmpKey := rfl
  have notUdp : (completeTask cfg p).protocol ≠ ipprotoUdp := by
    have tcp : (completeTask cfg p).protocol = ipprotoTcp := packet.tcp
    rw [tcp]
    decide
  have direct : handleTaskData cfg pd p = handleProtocolData cfg pd (completeTask cfg p) := by
    simp [handleTaskData, completeTask, packet.tcp]
  rw [direct]
  by_cases fin : p.has thFin ∧ p.data.length = 0
  · -- A bare FIN closes the key, which frees the object if there is one.
    have event : p.event = .close p.cmpKey := by simp [TaskDataT.event, fin]
    have noData : p.data = [] := List.eq_nil_of_length_eq_zero fin.2
    have finTask : (completeTask cfg p).has thFin ∧ (completeTask cfg p).data.length = 0 := fin
    cases found : pd.taskDataConnMap p.cmpKey with
    | none =>
      refine ⟨pd, none, ?_, ready, ?_, fun data => absurd noData data⟩
      · simp only [handleProtocolData, if_neg port, if_pos finTask, sameKey, found]
      · rw [event]
        simp only [Table.step, Table.set, ParseData.table, Table.mk.injEq, and_true]
        funext key
        by_cases same : key = p.cmpKey <;> simp [same, found]
    | some id =>
      obtain ⟨conn, there⟩ := Option.isSome_iff_exists.mp (ready.live packet id found)
      refine ⟨(pd.setEntry p.cmpKey none).setConn id none, none, ?_, ⟨ready.inv.close _ _,
        ready.inv.live_close found ready.client, ready.inv.live_close found ready.server⟩, ?_,
        fun data => absurd noData data⟩
      · simp only [handleProtocolData, if_neg port, if_pos finTask, sameKey, found,
          ParseData.freeConnection]
        simp [ParseData.setEntry, there]
      · rw [event]
        rfl
  · by_cases syn : p.has thSyn ∧ p.data.length = 0
    · -- A bare SYN changes nothing.
      have event : p.event = .skip := by rw [TaskDataT.event, if_neg fin, if_pos syn]
      have noData : p.data = [] := List.eq_nil_of_length_eq_zero syn.2
      have finTask : ¬ ((completeTask cfg p).has thFin ∧ (completeTask cfg p).data.length = 0) :=
        fin
      have synTask : (completeTask cfg p).has thSyn ∧ (completeTask cfg p).data.length = 0 := syn
      refine ⟨pd, none, ?_, ready, ?_, fun data => absurd noData data⟩
      · simp only [handleProtocolData, if_neg port, if_neg finTask, if_pos synTask]
      · rw [event]
        rfl
    · -- Everything else uses the object of its key, or makes one.
      have event : p.event = .use p.cmpKey (p.has thFin) := by
        rw [TaskDataT.event, if_neg fin, if_neg syn]
      have uses : (completeTask cfg p).Uses := ⟨port, fin, syn⟩
      obtain ⟨pd', sb, served, _, finished⟩ :=
        handleProtocolData_served ready.inv uses (ready.live packet) (Or.inr classed)
      refine ⟨pd', _, served, ⟨finished.inv ready.inv, finished.live ready.inv notUdp ready.client,
        finished.live ready.inv notUdp ready.server⟩, ?_, ?_⟩
      · rw [event, finished.table_eq fun udp => absurd udp notUdp]
        rfl
      · intro _
        exact ⟨_, rfl, rfl, rfl⟩

/-- Any packets of the session are handled, and the table follows their events. -/
theorem session_run (local' : s.serverPort ≠ 0) (registered : cfg.Registered s.serverPort)
    {pd : ParseData σ} (ready : Ready s pd) {packets : List TaskDataT}
    (all : ∀ p ∈ packets, s.Packet p) :
    ∃ pd', parse cfg pd packets = some pd' ∧ Ready s pd' ∧
      pd'.table = pd.table.run (packets.map TaskDataT.event) := by
  induction packets generalizing pd with
  | nil => exact ⟨pd, rfl, ready, rfl⟩
  | cons p packets ih =>
    obtain ⟨pd₁, handled, done, ready₁, table₁, _⟩ :=
      session_step local' registered ready (all p (by simp))
    obtain ⟨pd₂, rest, ready₂, table₂⟩ := ih ready₁ fun q member => all q (by simp [member])
    refine ⟨pd₂, ?_, ready₂, ?_⟩
    · simpa [parse, exec, done] using rest
    · rw [table₂, table₁]
      rfl

/--
The data of the session meets in one object exactly when it goes one way, to the right buffer.
-/
theorem oneConnection_iff (local' : s.serverPort ≠ 0) (registered : cfg.Registered s.serverPort)
    {pd : ParseData σ} (ready : Ready s pd) {packets : List TaskDataT}
    (all : ∀ p ∈ packets, s.Packet p) :
    OneConnection cfg s pd packets ↔ OneWay packets ∧
      ∀ p ∈ packets, p.data ≠ [] → s.FromServer p → s.clientPort ≠ s.serverPort := by
  -- Each packet with data is handled by the object its key has at that moment.
  have handledAt : ∀ before p after, packets = before ++ p :: after → p.data ≠ [] →
      ∀ h, HandledAfter cfg pd before p h →
        h.conn = (pd.table.run (before.map TaskDataT.event)).object p.cmpKey ∧ h.side = p.side := by
    intro before p after whole data h ⟨pd₁, pd₂, ran, done⟩
    have earlier : ∀ q ∈ before, s.Packet q := fun q member => all q (by simp [whole, member])
    obtain ⟨mid, ran', ready', table'⟩ := session_run local' registered ready earlier
    have same : mid = pd₁ := Option.some.inj (ran'.symm.trans ran)
    subst same
    obtain ⟨pd', handled, done', _, _, ofData⟩ :=
      session_step local' registered ready' (all p (by simp [whole]))
    obtain ⟨h', some', conn, side⟩ := ofData data
    rw [done', some'] at done
    simp only [Option.some.injEq, Prod.mk.injEq] at done
    rw [← done.2, conn, side, table']
    exact ⟨rfl, rfl⟩
  have exists' : ∀ before p after, packets = before ++ p :: after → p.data ≠ [] →
      ∃ h, HandledAfter cfg pd before p h := by
    intro before p after whole data
    have earlier : ∀ q ∈ before, s.Packet q := fun q member => all q (by simp [whole, member])
    obtain ⟨mid, ran, ready', _⟩ := session_run local' registered ready earlier
    obtain ⟨pd', handled, done, _, _, ofData⟩ :=
      session_step local' registered ready' (all p (by simp [whole]))
    obtain ⟨h, some', _⟩ := ofData data
    exact ⟨h, mid, pd', ran, some' ▸ done⟩
  have uses : ∀ p : TaskDataT, p.data ≠ [] →
      p.event = .use p.cmpKey ((fun q : TaskDataT => decide (q.has thFin)) p) :=
    fun p data => TaskDataT.event_of_data data
  have objects := ready.inv.numbered.one_object_iff uses packets
  have oneWay : OneWay packets ↔ ∃ object, ∀ before p after, packets = before ++ p :: after →
      p.data ≠ [] → (pd.table.run (before.map TaskDataT.event)).object p.cmpKey = object := by
    rw [objects]
    constructor
    · intro way before p between q after whole dataP dataQ
      obtain ⟨same, stays⟩ := way before p between q after whole dataP dataQ
      refine ⟨same, ?_⟩
      intro r member closes
      obtain ⟨own, fin⟩ := TaskDataT.event_closes_iff.mp closes
      exact stays r member own fin
    · intro way before p between q after whole dataP dataQ
      obtain ⟨same, stays⟩ := way before p between q after whole dataP dataQ
      refine ⟨same, ?_⟩
      intro r member own fin
      exact stays r member (TaskDataT.event_closes_iff.mpr ⟨own, fin⟩)
  constructor
  · intro ⟨conn, one⟩
    constructor
    · rw [oneWay]
      refine ⟨conn, ?_⟩
      intro before p after whole data
      obtain ⟨h, after', same, _⟩ := one before p after whole data
      exact (handledAt before p after whole data h after').1.symm.trans same
    · intro p member data sent
      obtain ⟨before, after, whole⟩ := List.append_of_mem member
      obtain ⟨h, after', _, _, toServer⟩ := one before p after whole data
      have side := (handledAt before p after whole data h after').2
      exact (Session.FromServer.side_iff (all p member) sent).mp (side.symm.trans (toServer sent))
  · intro ⟨way, ports⟩
    obtain ⟨conn, one⟩ := oneWay.mp way
    refine ⟨conn, ?_⟩
    intro before p after whole data
    have member : p ∈ packets := by simp [whole]
    obtain ⟨h, after'⟩ := exists' before p after whole data
    obtain ⟨object, side⟩ := handledAt before p after whole data h after'
    refine ⟨h, after', object.trans (one before p after whole data), ?_, ?_⟩
    · intro sent
      exact side.trans (Session.FromClient.side (all p member) sent)
    · intro sent
      exact side.trans
        ((Session.FromServer.side_iff (all p member) sent).mpr (ports p member data sent))

/-- The session is let go exactly when at each FIN or RST neither direction is left open. -/
theorem letGo_iff (local' : s.serverPort ≠ 0) (registered : cfg.Registered s.serverPort)
    {pd : ParseData σ} (ready : Ready s pd) (noClient : pd.taskDataConnMap s.clientKey = none)
    (noServer : pd.taskDataConnMap s.serverKey = none) {packets : List TaskDataT}
    (all : ∀ p ∈ packets, s.Packet p) :
    LetGo cfg s pd packets ↔
      ∀ before p after, packets = before ++ p :: after → p.has thFin ∨ p.has thRst →
        ¬ LeftOpen (before ++ [p]) s.clientKey ∧ ¬ LeftOpen (before ++ [p]) s.serverKey := by
  -- After any first part, a key has an object exactly when that part left it open.
  have keys : ∀ before p after, packets = before ++ p :: after →
      ∃ pd', parse cfg pd (before ++ [p]) = some pd' ∧
        ∀ key, pd.taskDataConnMap key = none →
          (pd'.taskDataConnMap key = none ↔ ¬ LeftOpen (before ++ [p]) key) := by
    intro before p after whole
    have soFar : ∀ q ∈ before ++ [p], s.Packet q := by
      intro q member
      apply all q
      rcases List.mem_append.mp member with earlier | now
      · simp [whole, earlier]
      · simp [whole, List.mem_singleton.mp now]
    obtain ⟨pd', ran, _, table'⟩ := session_run local' registered ready soFar
    refine ⟨pd', ran, ?_⟩
    intro key closed
    rw [← openAfter_iff, ← Table.isSome_run_iff (t := pd.table) closed, ← table']
    simp [ParseData.table]
  constructor
  · intro gone before p after whole ends
    obtain ⟨pd', ran, client, server⟩ := gone before p after whole ends
    obtain ⟨pd'', ran', open'⟩ := keys before p after whole
    have same : pd'' = pd' := Option.some.inj (ran'.symm.trans ran)
    subst same
    exact ⟨(open' _ noClient).mp client, (open' _ noServer).mp server⟩
  · intro closed before p after whole ends
    obtain ⟨pd', ran, open'⟩ := keys before p after whole
    obtain ⟨client, server⟩ := closed before p after whole ends
    exact ⟨pd', ran, (open' _ noClient).mpr client, (open' _ noServer).mpr server⟩

end Runs

/--
When a TCP session is kept in one `Connection` and let go at its end.

The session starts in any reachable `ParseData` without an object under its two keys.
-/
theorem session_identity_iff (cfg : ParseConfig σ) (s : Session) (pd : ParseData σ)
    (packets : List TaskDataT) (reached : Reachable (parseRuns cfg) pd)
    (noClient : pd.taskDataConnMap s.clientKey = none)
    (noServer : pd.taskDataConnMap s.serverKey = none)
    (local' : s.serverPort ≠ 0) (registered : cfg.Registered s.serverPort)
    (all : ∀ p ∈ packets, s.Packet p) :
    OneConnection cfg s pd packets ∧ LetGo cfg s pd packets ↔ s.Simple packets := by
  -- Without objects under its keys the session is ready to start.
  have ready : Ready s pd := by
    refine ⟨inv_of_reachable reached, ?_, ?_⟩
    · intro id found
      simp [noClient] at found
    · intro id found
      simp [noServer] at found
  rw [oneConnection_iff local' registered ready all,
    letGo_iff local' registered ready noClient noServer all]
  constructor
  · intro ⟨⟨way, ports⟩, closed⟩
    exact ⟨way, ports, closed⟩
  · intro simple
    exact ⟨⟨simple.oneWay, simple.ports⟩, simple.closed⟩

/-- A client on 10.0.0.2 port 1000 of the server on 10.0.0.1 port 3306. -/
def oneSession : Session :=
  ⟨[49, 48, 46, 48, 46, 48, 46, 50], 1000, [49, 48, 46, 48, 46, 48, 46, 49], 3306⟩

namespace Session

/-- A packet of the client. -/
def request (s : Session) (flags : UInt8) (data : Bytes) : TaskDataT :=
  ⟨⟨s.clientIp, s.clientPort, s.serverIp, s.serverPort, []⟩, ⟨s.serverPort, []⟩, data,
    flags, ipprotoTcp⟩

/-- A packet of the server. -/
def answer (s : Session) (flags : UInt8) (data : Bytes) : TaskDataT :=
  ⟨⟨s.serverIp, s.serverPort, s.clientIp, s.clientPort, []⟩, ⟨s.serverPort, []⟩, data,
    flags, ipprotoTcp⟩

theorem packet_request (s : Session) (flags : UInt8) (data : Bytes) :
    s.Packet (s.request flags data) := ⟨rfl, rfl, Or.inl rfl⟩

theorem packet_answer (s : Session) (flags : UInt8) (data : Bytes) :
    s.Packet (s.answer flags data) := ⟨rfl, rfl, Or.inr rfl⟩

/-- One request with data and then the client's FIN make a simple session. -/
theorem simple_request (s : Session) (data : Bytes) (ports : s.clientPort ≠ s.serverPort) :
    s.Simple [s.request 0x18 data, s.request 0x11 []] := by
  constructor
  · intro before p between q after whole dataP dataQ
    -- The second packet has no data, and there is no third one.
    have lengths := congrArg List.length whole
    simp only [List.length_cons, List.length_nil, List.length_append] at lengths
    have none₁ : before = [] := List.eq_nil_of_length_eq_zero (by omega)
    have none₂ : between = [] := List.eq_nil_of_length_eq_zero (by omega)
    subst none₁ none₂
    simp only [List.nil_append, List.cons.injEq] at whole
    exact absurd (whole.2.1 ▸ rfl) dataQ
  · intro _ _ _ _
    exact ports
  · intro before p after whole ends
    have finish : (s.request 0x11 []).has thFin := by
      change (0x11 : UInt8) &&& thFin ≠ 0
      decide
    have notFin : ¬ ((0x18 : UInt8) &&& thFin ≠ 0) := by decide
    have notRst : ¬ ((0x18 : UInt8) &&& thRst ≠ 0) := by decide
    -- Only the last packet is a FIN, and it is of the same direction as the first.
    have closed : ∀ key, ¬ LeftOpen [s.request 0x18 data, s.request 0x11 []] key := by
      intro key ⟨front, q, back, split, own, lasts, stays⟩
      rcases front with _ | ⟨first, front⟩
      · simp only [List.nil_append, List.cons.injEq] at split
        obtain ⟨rfl, rfl⟩ := split
        exact stays (s.request 0x11 []) (by simp) own finish
      · have lengths := congrArg List.length split
        simp only [List.length_cons, List.length_nil, List.length_append] at lengths
        have none₁ : front = [] := List.eq_nil_of_length_eq_zero (by omega)
        subst none₁
        simp only [List.cons_append, List.nil_append, List.cons.injEq] at split
        obtain ⟨_, rfl, _⟩ := split
        exact lasts.1 finish
    rcases before with _ | ⟨first, before⟩
    · simp only [List.nil_append, List.cons.injEq] at whole
      obtain ⟨rfl, _⟩ := whole
      exact absurd ends (not_or.mpr ⟨notFin, notRst⟩)
    · have lengths := congrArg List.length whole
      simp only [List.length_cons, List.length_nil, List.length_append] at lengths
      have none₁ : before = [] := List.eq_nil_of_length_eq_zero (by omega)
      subst none₁
      simp only [List.cons_append, List.nil_append, List.cons.injEq] at whole
      obtain ⟨rfl, rfl, _⟩ := whole
      exact ⟨closed _, closed _⟩

end Session

/-- The request is handled by one connection, of which nothing is left after the FIN. -/
theorem session_identity_request :
    OneConnection oneProtocol oneSession .new [oneSession.request 0x18 [81],
      oneSession.request 0x11 []] ∧
      LetGo oneProtocol oneSession .new [oneSession.request 0x18 [81],
        oneSession.request 0x11 []] := by
  apply (session_identity_iff oneProtocol oneSession .new
    [oneSession.request 0x18 [81], oneSession.request 0x11 []] (Reachable.start rfl) rfl
      rfl (by decide)
    ⟨[70], rfl, rfl⟩ ?_).mpr
  · exact oneSession.simple_request [81] (by decide)
  · intro p member
    rcases List.mem_pair.mp member with first | second
    · exact first ▸ oneSession.packet_request 0x18 [81]
    · exact second ▸ oneSession.packet_request 0x11 []

/-- A request and its answer are handled by two different connections. -/
theorem answer_in_other_connection :
    (∀ p ∈ [oneSession.request 0x18 [81], oneSession.answer 0x18 [82]], oneSession.Packet p) ∧
      oneSession.serverPort ≠ 0 ∧ oneProtocol.Registered oneSession.serverPort ∧
      ¬ OneConnection oneProtocol oneSession .new
        [oneSession.request 0x18 [81], oneSession.answer 0x18 [82]] := by
  have all : ∀ p ∈ [oneSession.request 0x18 [81], oneSession.answer 0x18 [82]],
      oneSession.Packet p := by
    intro p member
    rcases List.mem_pair.mp member with first | second
    · exact first ▸ oneSession.packet_request 0x18 [81]
    · exact second ▸ oneSession.packet_answer 0x18 [82]
  have registered : oneProtocol.Registered oneSession.serverPort := ⟨[70], rfl, rfl⟩
  have ready : Ready oneSession (.new : ParseData Unit) := by
    refine ⟨ParseData.inv_new, ?_, ?_⟩ <;>
    · intro id found
      simp [ParseData.new] at found
  refine ⟨all, by decide, registered, ?_⟩
  intro one
  have way := ((oneConnection_iff (by decide) registered ready all).mp one).1
  -- The two keys are the two endpoints in either order.
  have same := (way [] _ [] _ [] rfl (by decide) (by decide)).1
  exact absurd same (by decide)

end OneProxy.Monitor
