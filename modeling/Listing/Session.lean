import Listing.Value.Basic
set_option autoImplicit false

namespace Listing

structure Connection where
  dialect : Option String
deriving DecidableEq, Repr

structure Session where
  own : Option Connection
  wrapped : Option Connection
deriving DecidableEq, Repr

namespace Session

/-- The connection in use: a session's own one comes first. -/
def connection? (s : Session) : Option Connection := s.own.orElse fun _ => s.wrapped

def isPostgresql (s : Session) : Bool :=
  (s.connection?.bind (·.dialect)) == some "postgresql"

/-- Whether totals are counted along with the rows: as asked for, else on PostgreSQL only. -/
def countsAlong (s : Session) (asked : Value) : Value :=
  match asked with
  | .null => .bool s.isPostgresql
  | v => v

end Session
end Listing
