import TinyCache.Spec.Logging

/-! A log in JSON can be read back, whatever is in the messages: none of them can end its line or
forge another record. -/

namespace TinyCache.Logging

variable {handler : Handler} {text : TimeText}

theorem newline_notMem_format (record : LogRecord) : Lines.newline ∉ JsonFormatter.format text record := by
  intro hmem
  have hprintable := Json.dumps_printable _ hmem
  exact absurd hprintable (by decide)

theorem stream_eq_join (hjson : handler.formatter = .json) (logged : List (String × LogRecord)) :
    handler.stream text logged = Lines.join ((handler.shown logged).map fun p =>
      JsonFormatter.format text (RequestIdFilter.filter p.1 p.2)) := by
  induction logged with
  | nil => rfl
  | cons p logged ih =>
    rw [Handler.stream, List.flatMap_cons, Handler.emit, Handler.shown, List.filter_cons]
    by_cases hlevel : p.2.levelno < handler.level
    · rw [if_pos hlevel, if_neg (by simp [hlevel]), List.nil_append]
      exact ih
    · rw [if_neg hlevel, if_pos (by simp [hlevel]), List.map_cons, Lines.join, List.flatMap_cons, Handler.format, hjson]
      exact congrArg _ ih

/-- However the records come, each that is shown is one line, which parses to what was logged. -/
theorem json_log_reads_back (letters : Casing) (text : TimeText) (logLevel : String) {logFormat : String}
    (hjson : letters.lower logFormat = "json") (logged : List (String × LogRecord)) :
    let handler := configureLogging letters logLevel logFormat
    (Lines.split (handler.stream text logged)).map Json.loads = (handler.shown logged).map fun p =>
      some (JsonFormatter.payload text (RequestIdFilter.filter p.1 p.2)) := by
  intro handler
  have hformatter : handler.formatter = .json := if_pos hjson
  rw [stream_eq_join hformatter, Lines.split_join, List.map_map]
  · exact List.map_congr_left fun p _ => Json.loads_dumps _
  · intro line hline
    obtain ⟨p, -, rfl⟩ := List.mem_map.mp hline
    exact newline_notMem_format _

/-- A message that looks like the end of its line and another one. -/
def forged : LogRecord :=
  ⟨0, 40, "ERROR", "tiny_cache", Char.toString (Char.ofNat 34) ++ "\n" ++ Char.toString (Char.ofNat 123), none, none⟩

theorem json_log_reads_back_run :
    (Lines.split ((configureLogging .ascii "INFO" "JSON").stream ⟨fun _ => "0", fun _ => "0"⟩
      [("r1", forged), ("r2", { forged with levelno := 10 }), ("-", forged)])).length = 2 := by
  have h := congrArg List.length (json_log_reads_back .ascii ⟨fun _ => "0", fun _ => "0"⟩ "INFO"
    (show Casing.ascii.lower "JSON" = "json" by decide +kernel)
    [("r1", forged), ("r2", { forged with levelno := 10 }), ("-", forged)])
  rw [List.length_map, List.length_map] at h
  rw [h]
  decide +kernel

end TinyCache.Logging
