import TinyCache.Library.Json
import TinyCache.Library.Framing
import TinyCache.Spec.Process

/-! What the process logs: a record gets the id of the request, is turned into text, and goes to
the stream, under the lock of the handler, with the end of a line after it. -/

namespace TinyCache.Logging

/-- The message is what `getMessage` returns, the exception what `formatException` makes of it. -/
structure LogRecord where
  created : Time
  levelno : ℕ
  levelname : String
  name : String
  message : String
  excInfo : Option String := none
  requestId : Option String := none

/-- Times as text. -/
structure TimeText where
  isoformat : Time → String
  asctime : Time → String

def RequestIdFilter.filter (requestIdVar : String) (record : LogRecord) : LogRecord :=
  { record with requestId := some requestIdVar }

namespace JsonFormatter

variable (text : TimeText) (record : LogRecord)

def payload : Json.Value :=
  let fields : List (String × Json.Value) :=
    [("timestamp", .str (text.isoformat record.created)), ("level", .str record.levelname),
      ("logger", .str record.name), ("request_id", .str (record.requestId.getD "-")),
      ("message", .str record.message)]
  match record.excInfo with
  | some excInfo => .obj (fields ++ [("exc_info", .str excInfo)])
  | none => .obj fields

def format : List Char := Json.dumps (payload text record)

end JsonFormatter

/-- `logging.Formatter` with the format of the other branch; the request id is there by then. -/
def formatText (text : TimeText) (record : LogRecord) : String :=
  let requestId := record.requestId.getD "-"
  let line := s!"{text.asctime record.created} - {record.name} - {record.levelname} - {requestId} - {record.message}"
  match record.excInfo with
  | some excInfo => (if line.endsWith "\n" then line else line ++ "\n") ++ excInfo
  | none => line

inductive Formatter
  | json
  | text
  deriving DecidableEq

structure Handler where
  level : ℕ
  formatter : Formatter

/-- The levels of the `logging` module. -/
def LEVELS : List (String × ℕ) :=
  [("CRITICAL", 50), ("FATAL", 50), ("ERROR", 40), ("WARNING", 30), ("WARN", 30), ("INFO", 20), ("DEBUG", 10),
    ("NOTSET", 0)]

def configureLogging (letters : Casing) (logLevel logFormat : String) : Handler where
  level := (LEVELS.lookup (letters.upper logLevel)).getD 20
  formatter := if letters.lower logFormat = "json" then .json else .text

namespace Handler

variable (handler : Handler) (text : TimeText)

def format (record : LogRecord) : List Char :=
  match handler.formatter with
  | .json => JsonFormatter.format text record
  | .text => (formatText text record).toList

/-- A record that is logged while the variable has a value. -/
def emit (requestIdVar : String) (record : LogRecord) : List Char :=
  if record.levelno < handler.level then []
  else handler.format text (RequestIdFilter.filter requestIdVar record) ++ [Lines.newline]

/-- What is on the stream after some records. -/
def stream (logged : List (String × LogRecord)) : List Char := logged.flatMap fun p => handler.emit text p.1 p.2

/-- The records that are not below the level. -/
def shown (logged : List (String × LogRecord)) : List (String × LogRecord) :=
  logged.filter fun p => !decide (p.2.levelno < handler.level)

end Handler

end TinyCache.Logging
