import OneProxy.Stats.Counters

/-! Each event adds to the counters what it counts. -/

namespace OneProxy.Record

open Ledger

variable {record after : Record}

/-- One family of counters is added its figures, and the others stay as they were. -/
theorem read_of_family {δ : Type} [DecidableEq δ] {tag : δ → Counter}
    (injective : Function.Injective tag) {figures : List (δ × UInt64)}
    (own : ∀ d, after.read (tag d) = record.read (tag d) + amount figures d)
    (same : ∀ counter, (∀ d, counter ≠ tag d) → after.read counter = record.read counter)
    (counter : Counter) :
    after.read counter = record.read counter + amount (tagged tag figures) counter := by
  by_cases member : ∃ d, counter = tag d
  · obtain ⟨d, rfl⟩ := member
    rw [amount_tagged injective]
    exact own d
  · have outside : ∀ d, counter ≠ tag d := fun d equal => member ⟨d, equal⟩
    rw [amount_tagged_outside outside, add_zero]
    exact same counter outside

/-- Nothing is counted where every counter stays as it was. -/
theorem read_same (same : ∀ counter, after.read counter = record.read counter)
    (counter : Counter) :
    after.read counter = record.read counter + amount ([] : List (Counter × UInt64)) counter := by
  rw [amount_nil, add_zero]
  exact same counter

/-- A lock's entry. -/
theorem read_updateLock {f : RecordMutex → RecordMutex} (figures : List (LockCounter × UInt64))
    (adds : ∀ info counter, LockCounter.of (f info) counter =
      LockCounter.of info counter + amount figures counter) (name : Bytes) (counter : Counter) :
    { record with recordMutexMap := record.recordMutexMap.upsert .new name f }.read counter =
      record.read counter + amount (tagged (Counter.lock name) figures) counter := by
  apply read_of_family (fun _ _ equal => (Counter.lock.inj equal).2)
  · intro own
    have changed := @StdMap.figure_upsert _ _ _ _ record.recordMutexMap RecordMutex.new f _
      (LockCounter.of · own) name (amount figures own) (by cases own <;> rfl)
      (fun info => adds info own) name
    simpa [read] using changed
  · intro counter outside
    cases counter with
    | lock other own =>
      have differ : other ≠ name := fun equal => outside own (by rw [equal])
      simp [read, StdMap.figure, differ]
    | _ => rfl

/-- A thread's entry. -/
theorem read_updateThread {f : ThreadInfo → ThreadInfo} (figures : List (ThreadCounter × UInt64))
    (adds : ∀ info counter, ThreadCounter.of (f info) counter =
      ThreadCounter.of info counter + amount figures counter) (threadId : UInt64)
    (counter : Counter) :
    (record.updateThread threadId f).read counter =
      record.read counter + amount (tagged (Counter.thread threadId) figures) counter := by
  apply read_of_family (fun _ _ equal => (Counter.thread.inj equal).2)
  · intro own
    have changed := @StdMap.figure_upsert _ _ _ _ record.threadInfoMap ThreadInfo.new f _
      (ThreadCounter.of · own) threadId (amount figures own) (by cases own <;> rfl)
      (fun info => adds info own) threadId
    simpa [read, updateThread] using changed
  · intro counter outside
    cases counter with
    | thread other own =>
      have differ : other ≠ threadId := fun equal => outside own (by rw [equal])
      simp [read, updateThread, StdMap.figure, differ]
    | _ => rfl

/-- The figures of the monitor's pages. -/
theorem read_updateHttp {f : HttpServerRecord → HttpServerRecord}
    (figures : List (HttpCounter × UInt64))
    (adds : ∀ http counter, HttpCounter.of (f http) counter =
      HttpCounter.of http counter + amount figures counter) (counter : Counter) :
    (record.updateHttp f).read counter =
      record.read counter + amount (tagged Counter.http figures) counter := by
  apply read_of_family (fun _ _ equal => Counter.http.inj equal)
  · intro own
    exact adds record.httpServerRecord own
  · intro counter outside
    cases counter with
    | http own => exact absurd rfl (outside own)
    | _ => rfl

/-- The visits of a page. -/
theorem read_updatePage (pageUrl : Bytes) (counter : Counter) :
    (record.recordHttpServerRequestPage pageUrl).read counter =
      record.read counter + amount [(Counter.page pageUrl, (1 : UInt64))] counter := by
  apply @read_of_family record _ Unit _ (fun _ => Counter.page pageUrl) (fun _ _ _ => rfl)
    [((), 1)]
  · intro own
    have changed := @StdMap.figure_upsert _ _ _ _ record.httpRequestPageCount 0 (· + 1) _
      id pageUrl 1 rfl (fun _ => rfl) pageUrl
    simpa [read, recordHttpServerRequestPage] using changed
  · intro counter outside
    cases counter with
    | page other =>
      have differ : other ≠ pageUrl := fun equal => outside () (by rw [equal])
      simp [read, recordHttpServerRequestPage, StdMap.figure, differ]
    | _ => rfl

/-- A transaction's entry. -/
theorem read_updateTrans {f : TransInfo → TransInfo} (figures : List (TransCounter × UInt64))
    (adds : ∀ info counter, TransCounter.of (f info).part counter =
      TransCounter.of info.part counter + amount figures counter) (transHashCode : UInt32)
    (counter : Counter) :
    { record with transInfoMap := record.transInfoMap.upsert .new transHashCode f }.read counter =
      record.read counter + amount (tagged (Counter.trans transHashCode) figures) counter := by
  apply read_of_family (fun _ _ equal => (Counter.trans.inj equal).2)
  · intro own
    have changed := @StdMap.figure_upsert _ _ _ _ record.transInfoMap TransInfo.new f _
      (fun info => own.of info.part) transHashCode (amount figures own) (by cases own <;> rfl)
      (fun info => adds info own) transHashCode
    simpa [read] using changed
  · intro counter outside
    cases counter with
    | trans other own =>
      have differ : other ≠ transHashCode := fun equal => outside own (by rw [equal])
      simp [read, StdMap.figure, differ]
    | _ => rfl

/-- A user's entry. -/
theorem read_updateUserApp {f : ClientUserAppInfo → ClientUserAppInfo}
    (figures : List (Unit × UInt64))
    (adds : ∀ info, (f info).part.loginTimes = info.part.loginTimes + amount figures ())
    (hashCode : UInt32) (counter : Counter) :
    { record with
        clientUserAppMap := record.clientUserAppMap.upsert .new hashCode f }.read counter =
      record.read counter + amount (tagged (fun _ => Counter.login hashCode) figures) counter := by
  apply read_of_family (fun _ _ _ => rfl)
  · intro own
    have changed := @StdMap.figure_upsert _ _ _ _ record.clientUserAppMap ClientUserAppInfo.new f _
      (fun info => info.part.loginTimes) hashCode (amount figures ()) rfl adds hashCode
    simpa [read] using changed
  · intro counter outside
    cases counter with
    | login other =>
      have differ : other ≠ hashCode := fun equal => outside () (by rw [equal])
      simp [read, StdMap.figure, differ]
    | _ => rfl

/-- A client's map, changed at one key. -/
theorem read_clientQueryMap {clientQueryMap : StdMap UInt32 ClientQueryInfo} {key : UInt32}
    (figures : List (ClientCounter × UInt64))
    (own : ∀ counter : ClientCounter,
      clientQueryMap.figure (fun info => counter.of info.part) key =
        record.clientQueryMap.figure (fun info => counter.of info.part) key + amount
          figures counter)
    (same : ∀ other, other ≠ key → clientQueryMap other = record.clientQueryMap other)
    (counter : Counter) :
    { record with clientQueryMap := clientQueryMap }.read counter =
      record.read counter + amount (tagged (Counter.client key) figures) counter := by
  apply read_of_family (fun _ _ equal => (Counter.client.inj equal).2)
  · exact own
  · intro counter outside
    cases counter with
    | client other own =>
      have differ : other ≠ key := fun equal => outside own (by rw [equal])
      simp [read, StdMap.figure, same other differ]
    | _ => rfl

/-- A statements' map, changed at one key. -/
theorem read_sqlInfoMap {sqlInfoMap : StdMap UInt32 SqlInfo} {key : UInt32}
    (figures : List (SqlCounter × UInt64))
    (own : ∀ counter : SqlCounter,
      sqlInfoMap.figure (fun info => counter.of info.part) key =
        record.sqlInfoMap.figure (fun info => counter.of info.part) key + amount figures counter)
    (same : ∀ other, other ≠ key → sqlInfoMap other = record.sqlInfoMap other)
    (counter : Counter) :
    { record with sqlInfoMap := sqlInfoMap }.read counter =
      record.read counter + amount (tagged (Counter.sql key) figures) counter := by
  apply read_of_family (fun _ _ equal => (Counter.sql.inj equal).2)
  · exact own
  · intro counter outside
    cases counter with
    | sql other own =>
      have differ : other ≠ key := fun equal => outside own (by rw [equal])
      simp [read, StdMap.figure, same other differ]
    | _ => rfl

/-- A change of a client's entry adds its figures, if there is one. -/
theorem read_updateClient {f : ClientQueryInfo → ClientQueryInfo}
    {figures : List (ClientCounter × UInt64)}
    (adds : ∀ info counter, ClientCounter.of (f info).part counter =
      ClientCounter.of info.part counter + amount figures counter)
    (hashCode : UInt32) (clientInfo : Option UInt32) (counter : Counter) :
    (record.updateClient hashCode clientInfo f).read counter =
      record.read counter + amount (record.clientCounts hashCode clientInfo figures) counter := by
  -- The change has an effect only if there is an entry under the key that is meant.
  unfold updateClient clientCounts
  cases target : record.clientTarget hashCode clientInfo with
  | none => exact read_same (fun _ => rfl) counter
  | some key =>
    have others : ∀ other, other ≠ key →
        record.clientQueryMap.adjustAt (some key) f other = record.clientQueryMap other :=
      fun other differ => StdMap.adjust_of_ne differ
    cases there : record.clientQueryMap key with
    | none =>
      simp only [there, Option.isSome_none, Bool.false_eq_true, if_false]
      apply read_same
      intro counter
      have nothing : record.clientQueryMap.adjustAt (some key) f = record.clientQueryMap := by
        funext other
        by_cases same : other = key
        · subst same
          simp [StdMap.adjustAt, there]
        · exact others other same
      rw [nothing]
    | some info =>
      simp only [there, Option.isSome_some, if_true]
      apply read_clientQueryMap figures _ others
      intro counter
      simp [StdMap.figure, StdMap.adjustAt, there, adds]

/-- A change of a client's figures adds them, if there is an entry. -/
theorem read_countClient {f : ClientQueryInfoPart → ClientQueryInfoPart}
    {figures : List (ClientCounter × UInt64)}
    (adds : ∀ part counter, ClientCounter.of (f part) counter =
      ClientCounter.of part counter + amount figures counter)
    (hashCode : UInt32) (clientInfo : Option UInt32) (counter : Counter) :
    (record.countClient hashCode clientInfo f).read counter =
      record.read counter + amount (record.clientCounts hashCode clientInfo figures) counter :=
  read_updateClient (fun info => adds info.part) hashCode clientInfo counter

/-- Without figures nothing is counted. -/
theorem clientCounts_nil (record : Record) (hashCode : UInt32) (clientInfo : Option UInt32) :
    record.clientCounts hashCode clientInfo [] = [] := by
  unfold clientCounts
  split <;> simp [tagged]

/-- A change of a statement's figures adds them, if there is an entry. -/
theorem read_countSql {f : SqlInfoPart → SqlInfoPart} {figures : List (SqlCounter × UInt64)}
    (adds : ∀ part counter, SqlCounter.of (f part) counter =
      SqlCounter.of part counter + amount figures counter)
    (hashCode : UInt32) (sqlInfo : Option UInt32) (counter : Counter) :
    (record.countSql hashCode sqlInfo f).read counter =
      record.read counter + amount (record.sqlCounts hashCode sqlInfo figures) counter := by
  -- The change has an effect only if there is an entry under the key that is meant.
  unfold countSql sqlCounts
  cases target : record.sqlTarget hashCode sqlInfo with
  | none => exact read_same (fun _ => rfl) counter
  | some key =>
    have others : ∀ other, other ≠ key →
        record.sqlInfoMap.adjustAt (some key) (fun info => { info with part := f info.part })
          other =
          record.sqlInfoMap other :=
      fun other differ => StdMap.adjust_of_ne differ
    cases there : record.sqlInfoMap key with
    | none =>
      simp only [there, Option.isSome_none, Bool.false_eq_true, if_false]
      apply read_same
      intro counter
      have nothing : record.sqlInfoMap.adjustAt (some key)
          (fun info => { info with part := f info.part }) = record.sqlInfoMap := by
        funext other
        by_cases same : other = key
        · subst same
          simp [StdMap.adjustAt, there]
        · exact others other same
      rw [nothing]
    | some info =>
      simp only [there, Option.isSome_some, if_true]
      apply read_sqlInfoMap figures _ others
      intro counter
      simp [StdMap.figure, StdMap.adjustAt, there, adds]

/-- The map after a statement is saved. -/
theorem sqlInfoMap_of_saved {env : Env} {conn conn' : Conn} {event : Option DBDataT}
    (saved : record.recordSqlInfoAddSql env conn = some (after, conn', event)) :
    ∃ info, savedSql conn ((record.sqlInfoMap conn.record.sqlInfo.sqlHashCode).getD .new) =
      some info ∧
      after = { record with
        sqlInfoMap :=
          Function.update record.sqlInfoMap conn.record.sqlInfo.sqlHashCode (some info) } := by
  simp only [recordSqlInfoAddSql, Option.bind_eq_bind, Option.bind_eq_some_iff] at saved
  obtain ⟨info, filled, rest⟩ := saved
  refine ⟨info, filled, ?_⟩
  split at rest
  · simp only [Option.some.injEq, Prod.mk.injEq] at rest
    exact rest.1.symm
  · simp only [Option.bind_eq_some_iff, Option.some.injEq, Prod.mk.injEq] at rest
    obtain ⟨_, _, same, _⟩ := rest
    exact same.symm

/-- Saving a statement does not touch its figures. -/
theorem figures_of_savedSql {conn : Conn} {info saved : SqlInfo}
    (filled : savedSql conn info = some saved) (counter : SqlCounter) :
    counter.of saved.part = counter.of info.part := by
  unfold savedSql at filled
  split at filled
  · simp only [Option.bind_eq_bind, Option.bind_eq_some_iff, Option.some.injEq] at filled
    obtain ⟨_, _, same⟩ := filled
    subst same
    cases counter <;> rfl
  · obtain rfl : info = saved := by simpa using filled
    rfl

/-- An event that only describes a statement counts nothing. -/
theorem read_recordSqlInfoAddSql {env : Env} {conn conn' : Conn} {event : Option DBDataT}
    (saved : record.recordSqlInfoAddSql env conn = some (after, conn', event)) (counter : Counter) :
    after.read counter = record.read counter := by
  obtain ⟨info, filled, same⟩ := sqlInfoMap_of_saved saved
  rw [same]
  cases counter with
  | sql hashCode own =>
    -- Only the entry of the statement is written, and its figures are kept.
    by_cases self : hashCode = conn.record.sqlInfo.sqlHashCode
    · subst self
      have kept := figures_of_savedSql filled own
      cases there : record.sqlInfoMap conn.record.sqlInfo.sqlHashCode with
      | none =>
        rw [there] at kept
        simp only [read, StdMap.figure, Function.update_self, there, kept]
        cases own <;> rfl
      | some old =>
        rw [there] at kept
        simpa [read, StdMap.figure, there] using kept
    · simp [read, StdMap.figure, self]
  | _ => rfl

/-- The sums of connections. -/
theorem read_updateSums (figures : List (SumCounter × UInt64))
    (own : ∀ counter : SumCounter, counter.of after = counter.of record + amount figures counter)
    (same : ∀ counter, (∀ d, counter ≠ Counter.sum d) → after.read counter = record.read counter)
    (counter : Counter) :
    after.read counter = record.read counter + amount (tagged Counter.sum figures) counter :=
  read_of_family (fun _ _ equal => Counter.sum.inj equal) own same counter

/-- The figures that the kind of a statement adds. -/
theorem countKind_adds (type : UInt32) (part : ClientQueryInfoPart) (counter : ClientCounter) :
    ClientCounter.of (countKind type { part with queryNum := part.queryNum + 1 }) counter =
      ClientCounter.of part counter + amount ((.query, 1) :: kindCounts type) counter := by
  unfold countKind kindCounts
  split
  · cases counter <;> simp [ClientCounter.of]
  · split
    · cases counter <;> simp [ClientCounter.of]
    · split
      · cases counter <;> simp [ClientCounter.of]
      · split <;> cases counter <;> simp [ClientCounter.of]

/-- An event adds to every counter what it counts. -/
theorem read_apply {event : Event} (applied : event.apply record = some after)
    (counter : Counter) :
    after.read counter = record.read counter + amount (event.counts record) counter := by
  cases event <;> simp only [Event.apply, Option.some.injEq] at applied
  case lock name =>
    subst applied
    by_cases named : name.length > 0
    · simp only [recordLock, Event.counts, named, if_true]
      exact read_updateLock [(.lock, 1)]
        (fun _ own => by cases own <;> simp [LockCounter.of]) name counter
    · simp only [recordLock, Event.counts, named, if_false]
      exact read_same (fun _ => rfl) counter
  case unlock name =>
    subst applied
    by_cases named : name.length > 0
    · simp only [recordUnlock, Event.counts, named, if_true]
      exact read_updateLock [(.unlock, 1)]
        (fun _ own => by cases own <;> simp [LockCounter.of]) name counter
    · simp only [recordUnlock, Event.counts, named, if_false]
      exact read_same (fun _ => rfl) counter
  case acceptClientConn =>
    subst applied
    apply read_updateSums [(.client, 1), (.current, 1), (.wait, 1)]
    · intro own
      cases own <;> simp [SumCounter.of, recordAcceptClientConn]
    · intro counter outside
      cases counter with
      | sum own => exact absurd rfl (outside own)
      | _ => rfl
  case startHandingConn =>
    subst applied
    apply read_updateSums [(.handing, 1), (.wait, -1)]
    · intro own
      cases own <;> simp [SumCounter.of, recordStartHandingConn, sub_eq_add_neg]
    · intro counter outside
      cases counter with
      | sum own => exact absurd rfl (outside own)
      | _ => rfl
  case closeClientConn =>
    subst applied
    apply read_updateSums [(.close, 1), (.handing, -1), (.current, -1)]
    · intro own
      cases own <;> simp [SumCounter.of, recordCloseClientConn, sub_eq_add_neg]
    · intro counter outside
      cases counter with
      | sum own => exact absurd rfl (outside own)
      | _ => rfl
  case clientConn2GlobalQueue =>
    subst applied
    exact read_same (fun counter => by cases counter <;> rfl) counter
  case outGlobalQueue =>
    subst applied
    exact read_same (fun counter => by cases counter <;> rfl) counter
  case threadRecvConn threadId =>
    subst applied
    exact read_updateThread [(.wait, 1), (.all, 1)]
      (fun _ own => by cases own <;> simp [ThreadCounter.of]) threadId counter
  case threadStartHandingConn threadId =>
    subst applied
    exact read_updateThread [(.wait, -1), (.handing, 1)]
      (fun _ own => by cases own <;> simp [ThreadCounter.of, sub_eq_add_neg]) threadId counter
  case threadFinishedConn threadId =>
    subst applied
    exact read_updateThread [(.handing, -1), (.finished, 1)]
      (fun _ own => by cases own <;> simp [ThreadCounter.of, sub_eq_add_neg]) threadId counter
  case threadFailConn threadId =>
    subst applied
    exact read_updateThread [(.fail, 1)]
      (fun _ own => by cases own <;> simp [ThreadCounter.of]) threadId counter
  case httpServerClientConnect =>
    subst applied
    exact read_updateHttp [(.connect, 1), (.current, 1)]
      (fun _ own => by cases own <;> simp [HttpCounter.of]) counter
  case httpServerRequest =>
    subst applied
    exact read_updateHttp [(.requestPage, 1)]
      (fun _ own => by cases own <;> simp [HttpCounter.of]) counter
  case httpServerClientCloseConnect =>
    subst applied
    exact read_updateHttp [(.current, -1)]
      (fun _ own => by cases own <;> simp [HttpCounter.of, sub_eq_add_neg]) counter
  case httpServerRequestPage pageUrl =>
    subst applied
    exact read_updatePage pageUrl counter
  case clientQueryRecvSize env conn hashCode size clientInfo =>
    subst applied
    exact read_countClient (fun _ own => by cases own <;> simp [ClientCounter.of]) hashCode
      clientInfo counter
  case clientQuerySendSize env conn hashCode size clientInfo =>
    subst applied
    exact read_countClient (fun _ own => by cases own <;> simp [ClientCounter.of]) hashCode
      clientInfo counter
  case clientQueryAddSql env conn clientInfo =>
    -- The list of a client's statements is no counter.
    subst applied
    have added : (record.recordClientQueryAddSql env conn clientInfo).1.read counter =
        record.read counter +
          amount (record.clientCounts conn.addressHashCode clientInfo []) counter :=
      read_updateClient (fun _ own => by cases own <;> simp [ClientCounter.of])
        conn.addressHashCode clientInfo counter
    rwa [clientCounts_nil] at added
  case clientQueryExec sqlHashCode clientAddressHashCode clientInfo =>
    subst applied
    simp only [recordClientQueryExec, Event.counts]
    cases record.sqlInfoMap sqlHashCode with
    | none => exact read_same (fun _ => rfl) counter
    | some sqlInfo =>
      exact read_countClient (countKind_adds sqlInfo.part.type) clientAddressHashCode clientInfo
        counter
  case clientQueryExecFail conn clientInfo =>
    subst applied
    exact read_updateClient (fun _ own => by cases own <;> simp [ClientCounter.of])
      conn.addressHashCode clientInfo counter
  case clientQueryOnLineTime hashCode time clientInfo =>
    subst applied
    exact read_countClient (fun _ own => by cases own <;> simp [ClientCounter.of]) hashCode
      clientInfo counter
  case clientQueryOffLine hashCode clientInfo =>
    -- The status and the time of a connection are no counters.
    subst applied
    have added : (record.recordClientQueryOffLine hashCode clientInfo).read counter =
        record.read counter + amount (record.clientCounts hashCode clientInfo []) counter :=
      read_countClient (fun _ own => by cases own <;> simp [ClientCounter.of]) hashCode clientInfo
        counter
    rwa [clientCounts_nil] at added
  case clientQueryAllocServerFail hashCode clientInfo =>
    subst applied
    exact read_countClient (fun _ own => by cases own <;> simp [ClientCounter.of]) hashCode
      clientInfo counter
  case clientQueryAddNewClient env connHashCode hashCode caddress cport saddress sport =>
    subst applied
    apply read_clientQueryMap [(.connect, 1)]
    · intro own
      cases there : record.clientQueryMap hashCode <;>
        cases own <;> simp [StdMap.figure, there, ClientCounter.of, ClientQueryInfo.new,
          ClientQueryInfoPart.zero]
    · intro other differ
      exact StdMap.upsert_of_ne differ
  case sqlInfoRecvSize env conn hashCode size sqlInfo =>
    subst applied
    exact read_countSql (fun _ own => by cases own <;> simp [SqlCounter.of]) hashCode sqlInfo
      counter
  case sqlInfoAddSql env conn =>
    obtain ⟨⟨after', conn', event⟩, saved, same⟩ := Option.map_eq_some_iff.mp applied
    simp only at same
    subst same
    exact read_same (read_recordSqlInfoAddSql saved) counter
  case sqlInfoExec hashCode sqlInfo =>
    subst applied
    exact read_countSql (fun _ own => by cases own <;> simp [SqlCounter.of]) hashCode sqlInfo
      counter
  case sqlInfoExecTran env conn hashCode sqlInfo =>
    subst applied
    exact read_countSql (fun _ own => by cases own <;> simp [SqlCounter.of]) hashCode sqlInfo
      counter
  case sqlInfoRecvResult env conn rows sqlInfo =>
    subst applied
    exact read_countSql (fun _ own => by cases own <;> simp [SqlCounter.of]) _ sqlInfo counter
  case sqlInfoExecFail env conn sqlInfo =>
    subst applied
    exact read_countSql (fun _ own => by cases own <;> simp [SqlCounter.of]) _ sqlInfo counter
  case transInfoEndTrans env transHashCode conn endTime =>
    subst applied
    apply read_updateTrans [(.exec, 1),
      (.totalTime, env.millisecondTime - conn.record.transStartTime),
      (.rollbackTimes, if conn.record.rollback then 1 else 0)]
    intro info own
    cases own <;> cases rolled : conn.record.rollback <;>
      simp [TransCounter.of, endedTrans, rolled]
  case clientUserAppInfoAdd hostName userName appName hashCode =>
    subst applied
    exact read_updateUserApp [((), 1)] (fun _ => by simp) hashCode counter
  case clientUserAppInfoAddSql hashCode sqlHashCode =>
    subst applied
    exact read_updateUserApp [] (fun _ => by simp) hashCode counter

end OneProxy.Record
