import Listing.Value.Text
set_option autoImplicit false

namespace Listing

structure Diagnostic where
  message : String
  context : List (Value × Value)
deriving Repr

namespace Diagnostic

inductive Level where
  | debug
  | info
  | warning
  | error
  | critical
deriving DecidableEq, Repr

namespace Level

def all : List Level := [debug, info, warning, error, critical]

def word : Level → String
  | debug => "DEBUG"
  | info => "INFO"
  | warning => "WARNING"
  | error => "ERROR"
  | critical => "CRITICAL"

def ofWord? (s : String) : Option Level := all.find? (·.word == s)

def rank : Level → Nat
  | debug => 10
  | info => 20
  | warning => 30
  | error => 40
  | critical => 50

end Level

def text (d : Diagnostic) : String := d.message ++ " " ++ (Value.map d.context).written

def recorded (level threshold : Level) (ds : List Diagnostic) : List Diagnostic :=
  if level.rank < threshold.rank then [] else ds

end Diagnostic
end Listing
