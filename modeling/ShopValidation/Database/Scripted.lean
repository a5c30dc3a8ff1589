import ShopValidation.Database.Program

/-!
# A database with planned replies

It answers each statement with the next reply of its plan, and with nothing once the plan is at its
end. The beginning and the commit of a transaction succeed unless an error is planned for them. All
that is sent is written down.
-/

namespace ShopValidation

/-- The replies that are planned, and what was sent so far. -/
structure ScriptedDatabase where
  replies : List DatabaseReply := []
  beginError : Option String := none
  commitError : Option String := none
  sent : List Command := []

namespace ScriptedDatabase

/-- A reply with no rows at all. -/
def nothing : DatabaseReply := .answered [] 0

/-- The reply to the beginning or the end of a transaction. -/
def replyOf : Option String → DatabaseReply
  | some message => .failed message
  | none => nothing

/-- Reply to a command. -/
def serve (command : Command) (db : ScriptedDatabase) : DatabaseReply × ScriptedDatabase :=
  let db := { db with sent := db.sent ++ [command] }
  match command with
  | .begin => (replyOf db.beginError, { db with beginError := none })
  | .commit => (replyOf db.commitError, { db with commitError := none })
  | .rollback => (nothing, db)
  | .run _ => (db.replies.head?.getD nothing, { db with replies := db.replies.tail })

/-- Run a program. -/
def run {α : Type} (program : Program α) (db : ScriptedDatabase) :
    Ending StoreError α × ScriptedDatabase :=
  let (result, db) := program.run serve db
  (result.mapError .refused, db)

/-- The database as a store. -/
def backend : Backend ScriptedDatabase where
  perform := fun operation db => run (.ofOperation operation) db

end ScriptedDatabase

end ShopValidation
