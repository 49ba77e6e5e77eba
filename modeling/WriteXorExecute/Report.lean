import WriteXorExecute.Execution
/-!
# Reports

A report tells a history to someone outside: one entry for each reply, with the events since the
entry before, as text, and with what is seen of every object. The points at which guards begin and
end, calls of backends that reach nothing, and barriers that leave nothing to be seen have no text.
-/
namespace WriteXorExecute

def Record.eventText (r : Record) : String :=
  "log " ++ r.level.name ++ " " ++ r.text

def modeText (mode : Option Mode) : String :=
  mode.elim "none" Mode.name

/-- What the system's switch is set to. -/
def Mode.switchSetting : Mode → String
  | write => "0"
  | exec => "1"

def Thread.Event.text? (name : String) : Thread.Event → Option String
  | .record r => some r.eventText
  | .begins .inert _ _ => none
  | .begins .system mode _ => some ("jit " ++ mode.switchSetting)
  | .begins .script mode seen =>
    some ("set " ++ name ++ " " ++ mode.name ++ " " ++ modeText seen.mode ++ " "
      ++ toString seen.transitions.toNat)
  | .returns _ | .unwinds _ | .caught _ => none
  | .reinitialized => some ("hook " ++ name ++ " init")
  | .reenabled mode previous =>
    some ("hook " ++ name ++ " enable " ++ mode.name ++ " -> " ++ previous.name)

def Happening.text? : Happening → Option String
  | .thread name event => event.text? name
  | .toggle name event =>
    some ("toggle " ++ name ++ " " ++ event.asked.name ++ " -> " ++ event.answer.name)
  | .barrier .counted => some "barrier"
  | .barrier .processor => none
  | .selfCheck r | .mark (.changed _ r) _ => some r.eventText
  | .mark _ _ => none

/-- A reply, the events since the one before, and what is then seen of every object. -/
structure Entry where
  label : Label
  reply : Reply
  events : List String
  objects : Snapshot

/-- The entries of a history, of which the events `pending` are still to be told, the newest
first. -/
def entriesFrom (pending : List String) : List Happening → List Entry
  | [] => []
  | .mark (.completed label reply) now :: rest =>
    ⟨label, reply, pending.reverse, now⟩ :: entriesFrom [] rest
  | h :: rest => entriesFrom (h.text?.toList ++ pending) rest

def report (p : Platform) (program : Program) : List Entry :=
  entriesFrom [] (history p program)

end WriteXorExecute
