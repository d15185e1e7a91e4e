import OneProxy.NetworkSocket

/-! Socket objects on the heap, and the databases of the configuration. -/

namespace OneProxy

/-- A pointer to a `NetworkSocket` object. -/
abbrev SocketId := Nat

/-- A `DataBase` of the configuration. -/
structure DataBase where
  addr : Bytes
  port : UInt32
  connectNum : UInt32
  connectNumLimit : UInt32
  allocToFrontConn : UInt32
  isActive : Bool

namespace DataBase

/-- `inc_connectionNum`. -/
def incConnectionNum (db : DataBase) : DataBase := { db with connectNum := db.connectNum + 1 }

/-- `dec_connectionNum`, which stops at zero. -/
def decConnectionNum (db : DataBase) : DataBase :=
  if db.connectNum > 0 then { db with connectNum := db.connectNum - 1 } else db

/-- `dec_allocToFrontConn`, which stops at zero. -/
def decAllocToFrontConn (db : DataBase) : DataBase :=
  if db.allocToFrontConn > 0 then { db with allocToFrontConn := db.allocToFrontConn - 1 } else db

end DataBase

/--
All socket objects ever made, which of them have been destroyed, and the databases.

A destroyed object keeps its last contents here, as freed memory may.
-/
structure Store where
  object : SocketId → NetworkSocket
  made : Nat
  /-- The destroyed objects, once for every `delete`. -/
  freed : List SocketId
  dataBase : DataBaseId → DataBase

namespace Store

/-- An object that was made and has not been destroyed. -/
def Live (store : Store) (s : SocketId) : Prop := s < store.made ∧ s ∉ store.freed

instance (store : Store) (s : SocketId) : Decidable (store.Live s) :=
  inferInstanceAs (Decidable (s < store.made ∧ s ∉ store.freed))

/-- The descriptor of a socket. -/
def fd (store : Store) (s : SocketId) : UInt32 := (store.object s).fd

/-- Changes a database. -/
def updateDataBase (store : Store) (db : DataBaseId) (f : DataBase → DataBase) : Store :=
  { store with dataBase := Function.update store.dataBase db (f (store.dataBase db)) }

/-- Changes a socket object. -/
def update (store : Store) (s : SocketId) (f : NetworkSocket → NetworkSocket) : Store :=
  { store with object := Function.update store.object s (f (store.object s)) }

/-- `new NetworkSocket`: the next object. -/
def alloc (store : Store) (ns : NetworkSocket) : Store :=
  { store with object := Function.update store.object store.made ns, made := store.made + 1 }

/-- `delete` of a socket, whose database then has one connection less. -/
def delete (store : Store) (s : SocketId) : Store :=
  let store := { store with freed := store.freed ++ [s] }
  match (store.object s).dataBase with
  | none => store
  | some db => store.updateDataBase db DataBase.decConnectionNum

/-- A descriptor the kernel may hand out: no live socket has it. -/
def FreshFd (store : Store) (fd : UInt32) : Prop :=
  fd ≠ 0 ∧ ∀ s < store.made, s ∉ store.freed → store.fd s ≠ fd

instance (store : Store) (fd : UInt32) : Decidable (store.FreshFd fd) :=
  inferInstanceAs (Decidable (fd ≠ 0 ∧ ∀ s < store.made, s ∉ store.freed → store.fd s ≠ fd))

end Store

end OneProxy
