import Mathlib.Data.Fintype.Basic
import OneProxy.Lib.Census
import OneProxy.Lib.Runs
import OneProxy.Session.ProtocolBase

/-!
How workers create connections to the backends: the statements of `protocol_createBackendConnect`
where the pool has no socket, one by one, and the end of a socket.
-/

namespace OneProxy

/-- Where a worker is in `protocol_createBackendConnect`, with its database and its new socket. -/
inductive Stage
  | idle
  /-- The socket is made, and the limit not looked at yet. -/
  | made (db : DataBaseId) (ns : SocketId)
  /-- The limit allowed one more connection. -/
  | checked (db : DataBaseId) (ns : SocketId)
  /-- The socket is connected and initialised. -/
  | connected (db : DataBaseId) (ns : SocketId)
  /-- `set_dataBase` is done. -/
  | assigned (db : DataBaseId) (ns : SocketId)
  deriving DecidableEq

namespace Stage

/-- The socket that the worker creates. -/
def socket? : Stage → Option SocketId
  | idle => none
  | made _ ns | checked _ ns | connected _ ns | assigned _ ns => some ns

/-- The database for which the worker is past the check, without having counted its socket. -/
def passed? : Stage → Option DataBaseId
  | idle | made .. => none
  | checked db _ | connected db _ | assigned db _ => some db

/-- The database between whose `set_dataBase` and `inc_connectionNum` the worker is. -/
def uncounted? : Stage → Option DataBaseId
  | assigned db _ => some db
  | _ => none

end Stage

/-- The database that a live socket is set for. -/
def Store.boundTo (store : Store) (ns : SocketId) : Option DataBaseId :=
  if ns ∈ store.freed then none else (store.object ns).dataBase

/-- The sockets and the databases, and the workers that connect them. -/
structure Backends (W : Type*) where
  store : Store
  workers : W → Stage

namespace Backends

variable {W : Type*} [DecidableEq W]

/-- One statement of a worker, or the end of a socket. -/
inductive Label (W : Type*)
  /-- `new NetworkSocket` for a database. -/
  | make (worker : W) (db : DataBaseId)
  /-- `connectNum` is compared with `connectNumLimit`. -/
  | check (worker : W)
  /-- `get_backendConnection` and `protocol_initBackendConnect`. -/
  | connect (worker : W) (result : ConnectResult)
  | setDataBase (worker : W)
  | incConnectionNum (worker : W)
  /-- `delete` of a socket. -/
  | delete (ns : SocketId)

/-- A worker comes to another stage. -/
def goto (s : Backends W) (worker : W) (stage : Stage) : Backends W :=
  { s with workers := Function.update s.workers worker stage }

/-- Changes the sockets. -/
def onStore (s : Backends W) (f : Store → Store) : Backends W := { s with store := f s.store }

/-- What a step leaves; a socket is destroyed once, and never while a worker creates it. -/
def next [Fintype W] (s : Backends W) : Label W → Option (Backends W)
  | .make worker db =>
    match s.workers worker with
    | .idle =>
      let socket := .new (s.store.dataBase db).addr (s.store.dataBase db).port
      some ((s.onStore fun store => store.alloc socket).goto worker (.made db s.store.made))
    | _ => none
  | .check worker =>
    match s.workers worker with
    | .made db ns =>
      -- A refused socket stays with its connection, and no database is set for it.
      if (s.store.dataBase db).connectNum ≥ (s.store.dataBase db).connectNumLimit then
        some (s.goto worker .idle)
      else some (s.goto worker (.checked db ns))
    | _ => none
  | .connect worker result =>
    match s.workers worker, result with
    | .checked _ _, .refused => some (s.goto worker .idle)
    | .checked db ns, .connected fd initialized =>
      if ¬ s.store.FreshFd fd then none
      else
        let s := s.onStore fun store => store.update ns fun ns => { ns with fd := fd }
        some (s.goto worker (if initialized then .connected db ns else .idle))
    | _, _ => none
  | .setDataBase worker =>
    match s.workers worker with
    | .connected db ns =>
      let s := s.onStore fun store => store.update ns fun ns => { ns with dataBase := some db }
      some (s.goto worker (.assigned db ns))
    | _ => none
  | .incConnectionNum worker =>
    match s.workers worker with
    | .assigned db _ =>
      let s := s.onStore fun store => store.updateDataBase db DataBase.incConnectionNum
      some (s.goto worker .idle)
    | _ => none
  | .delete ns =>
    if s.store.Live ns ∧ ∀ worker, (s.workers worker).socket? ≠ some ns then
      some (s.onStore fun store => store.delete ns)
    else none

/-- No socket is made yet, and no connection counted. -/
def Begins (s : Backends W) : Prop :=
  s.store.made = 0 ∧ s.store.freed = [] ∧ (∀ db, (s.store.dataBase db).connectNum = 0) ∧
    ∀ worker, s.workers worker = .idle

/-- The backends under any number of workers, from the start on. -/
def system [Fintype W] : Runs.System (Backends W) (Label W) := .ofStep Begins next

/-- The number of live sockets that a database is set for. -/
def bound (s : Backends W) (db : DataBaseId) : Nat :=
  Census.census (Finset.range s.store.made) s.store.boundTo (· = some db)

/-- The number of workers that create a connection past the check. -/
def passed [Fintype W] (s : Backends W) (db : DataBaseId) : Nat :=
  Census.census Finset.univ s.workers (·.passed? = some db)

/-- The number of workers between `set_dataBase` and `inc_connectionNum`. -/
def uncounted [Fintype W] (s : Backends W) (db : DataBaseId) : Nat :=
  Census.census Finset.univ s.workers (·.uncounted? = some db)

/--
No database has more connections than its limit, and one that no worker is about to count has as
many as there are live sockets for it.
-/
def Limited [Fintype W] (s : Backends W) : Prop :=
  ∀ db, (s.store.dataBase db).connectNum ≤ (s.store.dataBase db).connectNumLimit ∧
    (s.uncounted db = 0 → (s.store.dataBase db).connectNum.toNat = s.bound db)

end Backends

end OneProxy
