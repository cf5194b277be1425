import CallRouter.Json.Printer
import CallRouter.Policy

namespace CallRouter.Dict

namespace Key

def match_ : String := "match"
def invoke : String := "invoke"
def receiveProgress : String := "receive_progress"
def progress : String := "progress"
def timeout : String := "timeout"
def mode : String := "mode"
def reason : String := "reason"
def discloseMe : String := "disclose_me"
def caller : String := "caller"
def procedure : String := "procedure"
def message : String := "message"

end Key

/-- An option given by name. An absent one and `null` stand for no choice. -/
def choice {α : Type} (ofName : String → Except UnknownOption α) (key : String) (dict : Dict) :
    Except UnknownOption (Option α) :=
  match dict.get? key with
  | none | some .null => .ok none
  | some (.text text) => (ofName text).map some
  | some other => .error ⟨other.compact⟩

/-- A flag is set by `true` and by nothing else. -/
def flag (key : String) (dict : Dict) : Bool := dict.get? key == some (.bool true)

end CallRouter.Dict
