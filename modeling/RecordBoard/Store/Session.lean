import RecordBoard.Store.Records

/-!
# Sessions on a store

A session is a sequence of steps on one table, some of which speak of records and some of stored
octets. Each has its reply.
-/

namespace RecordBoard.Store

/-- A step of a session. -/
inductive Step where
  /-- Writes a record at the clock reading `now`. -/
  | upsert (key : String) (r : Record) (now : UInt64)
  /-- Reads a record. -/
  | get (key : String)
  /-- Deletes a key. -/
  | delete (key : String)
  /-- Reads a page of records. -/
  | list (stem : String) (limit : Nat) (cursor : Option String)
  /-- Reads the first records. -/
  | scan (limit : Nat)
  /-- Puts octets under a key. -/
  | putOctets (key : String) (value : Bytes)
  /-- Reads the octets under a key. -/
  | getOctets (key : String)
  /-- Reads a page of keys. -/
  | listKeys (stem : String) (limit : Nat) (cursor : Option String)
  /-- Reads the octets under many keys. -/
  | getMany (keys : List String)
  /-- Closes the table and opens it again. -/
  | reopen

/-- What a step replies. -/
inductive Reply where
  | stored (r : Record)
  | record (r : Option Record)
  | deleted (existed : Bool)
  | records (l : List Record) (cursor : Option String)
  | scanned (l : List Record)
  | put
  | octets (value : Option Bytes)
  | page (p : Page)
  | found (l : List (String × Bytes))
  | reopened

/-- One step of a session. -/
def Step.perform (b : Backend) (t : Table) : Step → Table × Except Trouble Reply
  | .upsert key r now => (b.upsert key r now).told (.map .stored) t
  | .get key => (t, (b.getRecord t key).map .record)
  | .delete key => (b.delete key).told (.map .deleted) t
  | .list stem limit cursor =>
    (t, (b.listRecords t stem limit cursor).map fun (l, c) => .records l c)
  | .scan limit => (t, (b.scan t limit).map .scanned)
  | .putOctets key value => (b.put key value).told (.map fun _ => .put) t
  | .getOctets key => (t, (b.get t key).map .octets)
  | .listKeys stem limit cursor => (t, (b.list t stem limit cursor).map .page)
  | .getMany keys => (t, (b.getMany t keys).map .found)
  | .reopen => (t, .ok .reopened)

/-- A session: what the steps reply, and the table they leave. -/
def session (b : Backend) (t : Table) : List Step → Table × List (Except Trouble Reply)
  | [] => (t, [])
  | step :: rest =>
    let (t, reply) := step.perform b t
    let (t, replies) := session b t rest
    (t, reply :: replies)

end RecordBoard.Store
