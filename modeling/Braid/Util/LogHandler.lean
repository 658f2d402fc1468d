import Braid.Library.Refinement
import Braid.Library.Text
import Braid.Net.IOUringObject
import Braid.Task.Machine
import Mathlib.Data.List.TakeWhile

/-! The log handler: which records reach standard output and the log file, and in which order. -/

namespace Braid.Util

open Braid.Task (LogLevel)
open Transition

/-- `to_string` of what is read as a log level, which is `none` where it is not one of the three. -/
def toString : Option LogLevel → List Byte
  | some .info => Text.ofString "INFO"
  | some .error => Text.ofString "ERROR"
  | some .fatal => Text.ofString "FATAL"
  | none => Text.ofString "UNKNOWN"

/-- The character separates the parts of a path. -/
def isSeparator (character : Byte) : Bool := character = 47 || character = 92

/-- `get_filename`: what follows the last separator, or the whole path. -/
def getFilename (path : List Byte) : List Byte :=
  (path.reverse.takeWhile fun character => !isSeparator character).reverse

/-- The file name has no separator in it, and one stands in front of it, if anything does. -/
theorem getFilename_split (path : List Byte) :
    ∃ directory, path = directory ++ getFilename path ∧
      (∀ character ∈ getFilename path, isSeparator character = false) ∧
      ∀ character ∈ directory.getLast?, isSeparator character = true := by
  -- From the back, the name is what is taken, and the separator is the first that is not.
  have split := List.takeWhile_append_dropWhile
    (p := fun character => !isSeparator character) (l := path.reverse)
  refine ⟨(path.reverse.dropWhile fun character => !isSeparator character).reverse, ?_, ?_, ?_⟩
  · rw [getFilename, ← List.reverse_append, split, List.reverse_reverse]
  · intro character member
    have taken := List.mem_takeWhile_imp (List.mem_reverse.mp member)
    simpa using taken
  · intro character last
    rw [List.getLast?_reverse] at last
    have first := List.head?_dropWhile_not (fun character => !isSeparator character) path.reverse
    rw [Option.mem_def.mp last] at first
    simpa using first

/-- A `std::source_location`. -/
structure SourceLocation where
  fileName : List Byte
  line : Nat
  functionName : List Byte
  deriving DecidableEq

/-- The location in a log line: `[file:line function]`. -/
def SourceLocation.format (location : SourceLocation) : List Byte :=
  [91] ++ getFilename location.fileName ++ [58] ++ Text.ofNat location.line ++ [32] ++
    location.functionName ++ [93]

/--
The arguments that a task of the log handler holds.

`LogImpl` moves the texts into the task, but hands on its parameter `level` as an lvalue: the task
holds a reference to it, for which the number of the call stands.
-/
structure LogTask where
  call : Nat
  timestamp : List Byte
  location : List Byte
  message : List Byte
  deriving DecidableEq

/-- The arguments that `write_log` is called with. -/
structure LogRecord where
  level : Option LogLevel
  timestamp : List Byte
  location : List Byte
  message : List Byte
  deriving DecidableEq

/-- The arguments of a task when its reference is read as this level. -/
def LogTask.record (task : LogTask) (level : Option LogLevel) : LogRecord :=
  ⟨level, task.timestamp, task.location, task.message⟩

/-- `format_log`. -/
def LogRecord.formatLog (record : LogRecord) : List Byte :=
  record.timestamp ++ Text.ofString " [" ++ toString record.level ++ Text.ofString "] " ++
    record.location ++ Text.ofString " : " ++ record.message

/-- A line of the log, with the newline that `std::endl` writes. -/
def LogRecord.line (record : LogRecord) : List Byte := record.formatLog ++ [10]

/-- A `std::ofstream`: the file that it is open on, and `fail()`. -/
structure FileStream where
  file : Option (List Byte) := none
  failed : Bool := false
  deriving DecidableEq

/-- The fields of the log handler, and the tasks that wait in its queue. -/
structure LogHandler where
  minLevel : LogLevel := .info
  fileEnabled : Bool := false
  fileStream : FileStream := {}
  filePath : List Byte := []
  taskQueue : List LogTask := []

/-- What the handler has written: standard output, standard error and the files. -/
structure Output where
  stdout : List Byte := []
  stderr : List Byte := []
  files : List Byte → List Byte

/-- The log handler with what it has written, and the calls that have requested a task of it. -/
structure Log where
  handler : LogHandler
  output : Output
  -- The number of these calls, and the parameter `level` of each that has not returned.
  calls : Nat
  levels : Nat → Option LogLevel

/-- The log handler after its construction, in a file system with these files. -/
def Log.init (files : List Byte → List Byte) : Log where
  handler := {}
  output := { files := files }
  calls := 0
  levels := fun _ => none

/-- Bytes are appended to a file. -/
def Output.append (output : Output) (file bytes : List Byte) : Output :=
  { output with files := Function.update output.files file (output.files file ++ bytes) }

/-- A line is written to standard error. -/
def Output.report (output : Output) (text : List Byte) : Output :=
  { output with stderr := output.stderr ++ text ++ [10] }

/-- The text of a failed open. -/
def openFailedText (filePath : List Byte) : List Byte :=
  Text.ofString "[LogHandler] Failed to open log file: " ++ filePath

/-- The text of a write to a stream that is not open or has failed. -/
def notValidText : List Byte :=
  Text.ofString "[LogHandler] File stream is not valid, disabling file output"

/-- The text of a failed write. -/
def writeErrorText : List Byte :=
  Text.ofString "[LogHandler] File write error, disabling file output"

namespace Log

variable (log : Log)

/--
`file_stream_.close()`.

Every write is flushed, so that only a stream that has failed may still have something to write:
`late` is what the library makes of it.
-/
def close (late : List Byte) : Log :=
  match log.handler.fileStream.file with
  | none => log
  | some file =>
    { log with
      handler := { log.handler with fileStream := { log.handler.fileStream with file := none } }
      output := if log.handler.fileStream.failed then log.output.append file late else log.output }

/-- `enable_file_output`, where opening the file succeeds or fails. -/
def enableFileOutput (filePath : List Byte) (opens : Bool) (late : List Byte) : Log :=
  let closed := log.close late
  if opens then
    { closed with handler := { closed.handler with
        filePath := filePath, fileStream := ⟨some filePath, false⟩, fileEnabled := true } }
  else
    { closed with
      handler := { closed.handler with
        filePath := filePath, fileStream := ⟨none, true⟩, fileEnabled := false }
      output := closed.output.report (openFailedText filePath) }

/-- `disable_file_output`. -/
def disableFileOutput (late : List Byte) : Log :=
  Log.close { log with handler := { log.handler with fileEnabled := false } } late

/-- `initialize`. -/
def initialize_ (filePath : List Byte) (minLevel : LogLevel) (opens : Bool) (late : List Byte) :
    Log :=
  let leveled := { log with handler := { log.handler with minLevel := minLevel } }
  if filePath = [] then leveled else leveled.enableFileOutput filePath opens late

/-- `write_to_file`, which writes the whole line, or something else and fails. -/
def writeToFile (line : List Byte) (residue : Option (List Byte)) : Log :=
  match log.handler.fileStream with
  | ⟨some file, false⟩ =>
    match residue with
    | none => { log with output := log.output.append file line }
    | some residue =>
      { log with
        handler := { log.handler with
          fileStream := ⟨some file, true⟩, fileEnabled := false }
        output := (log.output.append file residue).report writeErrorText }
  | _ =>
    { log with
      handler := { log.handler with fileEnabled := false }
      output := log.output.report notValidText }

/-- `write_log`. -/
def writeLog (record : LogRecord) (residue : Option (List Byte)) : Log :=
  let written := { log with output := { log.output with
    stdout := log.output.stdout ++ record.line } }
  if written.handler.fileEnabled then written.writeToFile record.line residue else written

/--
`LogImpl`: a record below the minimum level is passed over, any other one becomes a task.

With the task in the queue, the call goes on until it returns, and keeps its parameter that long.
-/
def logImpl (level : LogLevel) (timestamp : List Byte) (location : SourceLocation)
    (message : List Byte) : Log :=
  if level.rank < log.handler.minLevel.rank then log
  else
    { log with
      handler := { log.handler with
        taskQueue := log.handler.taskQueue ++ [⟨log.calls, timestamp, location.format, message⟩] }
      calls := log.calls + 1
      levels := Function.update log.levels log.calls (some level) }

/-- A call of `LogImpl` returns, and its parameter is gone. -/
def returnCall (call : Nat) : Log := { log with levels := Function.update log.levels call none }

/--
What a task reads through its reference: the level of its call, as long as that has not returned.

What is read through a dangling reference is undefined, and taken to be anything here.
-/
def readLevel (task : LogTask) (stray : Option LogLevel) : Option LogLevel :=
  match log.levels task.call with
  | some level => some level
  | none => stray

end Log

/-- What can happen next: a call of any thread, or the next task of the handler is invoked. -/
inductive LogLabel where
  | initialize_ (filePath : List Byte) (minLevel : LogLevel) (opens : Bool) (late : List Byte)
  | setMinLevel (level : LogLevel)
  | enableFileOutput (filePath : List Byte) (opens : Bool) (late : List Byte)
  | disableFileOutput (late : List Byte)
  | logImpl (level : LogLevel) (timestamp : List Byte) (location : SourceLocation)
    (message : List Byte)
  -- A call of `LogImpl` that has requested its task returns.
  | returnCall (call : Nat)
  -- What a dangling reference is read as, and what a failed write leaves in the file.
  | writeLog (stray : Option LogLevel) (residue : Option (List Byte))

/--
One step of the log handler.

The tasks are invoked one at a time and in the order of their requests, which is what a task
serializer is for.
-/
def logStep (log : Log) : LogLabel → Option Log
  | .initialize_ filePath minLevel opens late =>
    some (log.initialize_ filePath minLevel opens late)
  | .setMinLevel level => some { log with handler := { log.handler with minLevel := level } }
  | .enableFileOutput filePath opens late => some (log.enableFileOutput filePath opens late)
  | .disableFileOutput late => some (log.disableFileOutput late)
  | .logImpl level timestamp location message =>
    some (log.logImpl level timestamp location message)
  | .returnCall call => if (log.levels call).isSome then some (log.returnCall call) else none
  | .writeLog stray residue =>
    match log.handler.taskQueue with
    | [] => none
    | task :: rest =>
      some (Log.writeLog { log with handler := { log.handler with taskQueue := rest } }
        (task.record (log.readLevel task stray)) residue)

/-- What is remembered of a run: the tasks requested and invoked, and what happened to the files. -/
inductive LogEvent where
  | accepted (task : LogTask) (level : LogLevel)
  | returned (call : Nat)
  -- The level is what was read, the file the one that was enabled, and the residue what a failed
  -- write has left in it.
  | written (task : LogTask) (level : Option LogLevel) (file : Option (List Byte))
    (residue : Option (List Byte))
  | opened (file : List Byte)
  | openFailed (file : List Byte)
  -- A file is closed whose last write has failed.
  | closed (file : List Byte) (late : List Byte)
  deriving DecidableEq

namespace LogEvent

/-- The task that an event requests. -/
def accepted? : LogEvent → Option LogTask
  | .accepted task _ => some task
  | _ => none

/-- The task that an event invokes. -/
def written? : LogEvent → Option LogTask
  | .written task _ _ _ => some task
  | _ => none

/-- The event requests no task and is not the end of a call. -/
def callless : LogEvent → Bool
  | .accepted _ _ | .returned _ => false
  | _ => true

/-- The bytes that an event adds to a file. -/
def bytesFor (path : List Byte) : LogEvent → List Byte
  | .written task level (some file) none =>
    if file = path then (task.record level).line else []
  | .written _ _ (some file) (some residue) => if file = path then residue else []
  | .closed file late => if file = path then late else []
  | _ => []

/-- The bytes that an event adds to standard output. -/
def outputFor : LogEvent → List Byte
  | .written task level _ _ => (task.record level).line
  | _ => []

/-- The bytes that an event adds to standard error. -/
def errorFor : LogEvent → List Byte
  | .written _ _ (some _) (some _) => writeErrorText ++ [10]
  | .openFailed file => openFailedText file ++ [10]
  | _ => []

/-- A write to a file has failed. -/
def fails : LogEvent → Bool
  | .written _ _ (some _) (some _) => true
  | _ => false

/-- A file has been opened. -/
def opens : LogEvent → Bool
  | .opened _ => true
  | _ => false

end LogEvent

namespace Log

variable (log : Log)

/-- The file that is enabled, as the fields of the handler have it. -/
def enabledFile : Option (List Byte) :=
  if log.handler.fileEnabled then some log.handler.filePath else none

/-- What closing the stream is remembered as. -/
def closeEvents (late : List Byte) : List LogEvent :=
  if log.handler.fileStream.failed then
    log.handler.fileStream.file.toList.map fun file => .closed file late
  else []

/-- What `enable_file_output` is remembered as. -/
def enableEvents (filePath : List Byte) (opens : Bool) (late : List Byte) : List LogEvent :=
  log.closeEvents late ++ [if opens then .opened filePath else .openFailed filePath]

/-- What a step is remembered as. -/
def events : LogLabel → List LogEvent
  | .initialize_ filePath _ opens late =>
    if filePath = [] then [] else log.enableEvents filePath opens late
  | .setMinLevel _ => []
  | .enableFileOutput filePath opens late => log.enableEvents filePath opens late
  | .disableFileOutput late => log.closeEvents late
  | .logImpl level timestamp location message =>
    if level.rank < log.handler.minLevel.rank then []
    else [.accepted ⟨log.calls, timestamp, location.format, message⟩ level]
  | .returnCall call => [.returned call]
  | .writeLog stray residue =>
    log.handler.taskQueue.head?.toList.map fun task =>
      .written task (log.readLevel task stray) log.enabledFile residue

end Log

/-- The events of a run, one step after another. -/
def logObserve (log : Log) (label : LogLabel) (_ : Log) (events : List LogEvent) : List LogEvent :=
  events ++ log.events label

/--
The handler knows whether it can write: the output to a file is enabled exactly if the stream is
open on the file with the remembered path and no write to it has failed.
-/
structure Log.Truthful (log : Log) : Prop where
  enabled : log.handler.fileEnabled = true ↔
    log.handler.fileStream = ⟨some log.handler.filePath, false⟩
  -- A file that is open although it is not enabled is one that a write has failed on.
  failed : log.handler.fileStream.file ≠ none → log.handler.fileEnabled = false →
    log.handler.fileStream.failed = true

/-- What has been written is what the events say. -/
structure Output.Explained (files : List Byte → List Byte) (output : Output)
    (events : List LogEvent) : Prop where
  stdout : output.stdout = events.flatMap LogEvent.outputFor
  stderr : output.stderr = events.flatMap LogEvent.errorFor
  files : ∀ path, output.files path = files path ++ events.flatMap (LogEvent.bytesFor path)

/--
A task that is invoked before its call has returned reads the level of that call.

The events are looked at in their order: `i` is the place of the invocation among them.
-/
def Leveled (events : List LogEvent) : Prop :=
  ∀ i task level file residue, events[i]? = some (.written task level file residue) →
    .returned task.call ∈ events.take i ∨
      ∃ own, .accepted task own ∈ events.take i ∧ level = some own

/-- The calls are numbered in their order, and the parameters of those under way are alive. -/
structure Log.Numbered (log : Log) (events : List LogEvent) : Prop where
  fresh : ∀ task level, .accepted task level ∈ events → task.call < log.calls
  distinct : ((events.filterMap LogEvent.accepted?).map LogTask.call).Nodup
  alive : ∀ task level, .accepted task level ∈ events →
    .returned task.call ∈ events ∨ log.levels task.call = some level
  unborn : ∀ call, log.calls ≤ call → log.levels call = none ∧ .returned call ∉ events

/-- The handler tells the truth, and what it has done and has still to do is what the events say. -/
structure Log.Explained (files : List Byte → List Byte) (log : Log) (events : List LogEvent) :
    Prop where
  truthful : log.Truthful
  output : log.output.Explained files events
  queue : events.filterMap LogEvent.accepted? =
    events.filterMap LogEvent.written? ++ log.handler.taskQueue
  -- Each failed write ends what one opening of a file has begun.
  failures : events.countP LogEvent.fails + (if log.handler.fileEnabled then 1 else 0) ≤
    events.countP LogEvent.opens

/-- The log handler begins with nothing to explain. -/
theorem init_explained (files : List Byte → List Byte) :
    (Log.init files).Explained files [] where
  truthful := ⟨by simp [Log.init], by simp [Log.init]⟩
  output := ⟨rfl, rfl, fun path => (List.append_nil _).symm⟩
  queue := rfl
  failures := by simp [Log.init]

variable {files : List Byte → List Byte} {log next : Log} {output after : Output}
  {events : List LogEvent}

/-- One more event explains what is written in addition. -/
theorem Output.Explained.snoc (explained : output.Explained files events) (event : LogEvent)
    (stdout : after.stdout = output.stdout ++ event.outputFor)
    (stderr : after.stderr = output.stderr ++ event.errorFor)
    (added : ∀ path, after.files path = output.files path ++ event.bytesFor path) :
    after.Explained files (events ++ [event]) where
  stdout := by rw [stdout, explained.stdout]; simp
  stderr := by rw [stderr, explained.stderr]; simp
  files path := by rw [added, explained.files]; simp

/-- Bytes that are appended to a file are added to this file, and to no other one. -/
theorem append_files (file bytes path : List Byte) :
    (output.append file bytes).files path =
      output.files path ++ if file = path then bytes else [] := by
  simp only [Output.append, Function.update_apply]
  by_cases same : file = path
  · subst same
    simp
  · simp [same, Ne.symm same]

/-- Closing the stream writes what its event says, and touches no other field of the handler. -/
theorem close_explained (explained : log.output.Explained files events) (late : List Byte) :
    (log.close late).output.Explained files (events ++ log.closeEvents late) ∧
      (log.close late).handler =
        { log.handler with fileStream := { log.handler.fileStream with file := none } } := by
  obtain ⟨⟨minLevel, fileEnabled, ⟨file, failed⟩, filePath, taskQueue⟩, output⟩ := log
  cases file with
  | none => simpa [Log.close, Log.closeEvents] using explained
  | some file =>
    cases failed with
    | false => simpa [Log.close, Log.closeEvents] using explained
    | true =>
      -- The stream has failed, and the library may still write something when it is closed.
      refine ⟨explained.snoc (.closed file late) ?_ ?_ fun path => ?_, rfl⟩
      · exact (List.append_nil _).symm
      · exact (List.append_nil _).symm
      · exact append_files file late path

/-- Closing a stream takes no record and writes none, and neither fails nor opens anything. -/
theorem closeEvents_plain (log : Log) (late : List Byte) :
    (log.closeEvents late).filterMap LogEvent.accepted? = [] ∧
      (log.closeEvents late).filterMap LogEvent.written? = [] ∧
      (log.closeEvents late).countP LogEvent.fails = 0 ∧
      (log.closeEvents late).countP LogEvent.opens = 0 := by
  unfold Log.closeEvents
  split
  · cases log.handler.fileStream.file <;> exact ⟨rfl, rfl, rfl, rfl⟩
  · exact ⟨rfl, rfl, rfl, rfl⟩

/-- Enabling the output to a file leaves it enabled exactly if the file could be opened. -/
theorem Log.Explained.enableFileOutput (explained : log.Explained files events)
    (filePath : List Byte) (opens : Bool) (late : List Byte) :
    (log.enableFileOutput filePath opens late).Explained files
      (events ++ log.enableEvents filePath opens late) := by
  -- First the stream that may be open is closed, and then the next one is opened.
  obtain ⟨written, closed⟩ := close_explained explained.output late
  obtain ⟨accepted, none_, fails, opened⟩ := closeEvents_plain log late
  have failures := explained.failures
  unfold Log.enableFileOutput Log.enableEvents
  rw [← List.append_assoc]
  cases opens with
  | true =>
    refine ⟨⟨by simp, by simp⟩, ?_, ?_, ?_⟩
    · exact written.snoc (.opened filePath) (List.append_nil _).symm (List.append_nil _).symm
        fun path => (List.append_nil _).symm
    · simpa [accepted, none_, closed, List.filterMap_cons, LogEvent.accepted?,
        LogEvent.written?] using explained.queue
    · simp [fails, opened, LogEvent.fails, LogEvent.opens]
      omega
  | false =>
    refine ⟨⟨by simp, by simp⟩, ?_, ?_, ?_⟩
    · refine written.snoc (.openFailed filePath) (List.append_nil _).symm ?_
        fun path => (List.append_nil _).symm
      exact List.append_assoc _ _ _
    · simpa [accepted, none_, closed, List.filterMap_cons, LogEvent.accepted?,
        LogEvent.written?] using explained.queue
    · simp [fails, opened, LogEvent.fails, LogEvent.opens]
      omega

/-- Disabling the output to a file closes the stream. -/
theorem Log.Explained.disableFileOutput (explained : log.Explained files events)
    (late : List Byte) :
    (log.disableFileOutput late).Explained files (events ++ log.closeEvents late) := by
  -- The flag says nothing about what has been written.
  have disabled : ({ log with
      handler := { log.handler with fileEnabled := false } } : Log).output.Explained files events :=
    explained.output
  obtain ⟨written, closed⟩ := close_explained disabled late
  obtain ⟨accepted, none_, fails, opened⟩ := closeEvents_plain log late
  have failures := explained.failures
  refine ⟨⟨?_, ?_⟩, written, ?_, ?_⟩
  · simp [Log.disableFileOutput, closed]
  · simp [Log.disableFileOutput, closed]
  · simpa [Log.disableFileOutput, closed, accepted, none_] using explained.queue
  · simp [Log.disableFileOutput, closed, fails, opened]
    omega

/-- A task writes its record to standard output, and to the file that is enabled. -/
theorem Log.Explained.writeLog {task : LogTask} {rest : List LogTask}
    (explained : log.Explained files events) (first : log.handler.taskQueue = task :: rest)
    (level : Option LogLevel) (residue : Option (List Byte)) :
    (Log.writeLog { log with handler := { log.handler with taskQueue := rest } }
      (task.record level) residue).Explained files
        (events ++ [.written task level log.enabledFile residue]) := by
  obtain ⟨⟨enabled, failed⟩, output, queue, failures⟩ := explained
  obtain ⟨⟨minLevel, fileEnabled, fileStream, filePath, taskQueue⟩, written, calls, levels⟩ := log
  dsimp only at first enabled failed output queue failures
  subst first
  -- The task that was first in the queue is now the last one invoked.
  have shorter (file : Option (List Byte)) :
      (events ++ [LogEvent.written task level file residue]).filterMap LogEvent.accepted? =
        (events ++ [LogEvent.written task level file residue]).filterMap LogEvent.written? ++
          rest := by
    simpa [List.filterMap_cons, LogEvent.accepted?, LogEvent.written?] using queue
  cases fileEnabled with
  | false =>
    -- Only standard output gets the line.
    refine ⟨⟨enabled, failed⟩, ?_, shorter _, ?_⟩
    · exact output.snoc _ rfl (List.append_nil _).symm fun path => (List.append_nil _).symm
    · simpa [Log.writeLog, Log.enabledFile, LogEvent.fails, LogEvent.opens] using failures
  | true =>
    -- The stream is open on the enabled file, so that the write goes there.
    obtain rfl := enabled.mp rfl
    cases residue with
    | none =>
      refine ⟨⟨enabled, failed⟩, ?_, shorter _, ?_⟩
      · exact output.snoc _ rfl (List.append_nil _).symm fun path => append_files filePath _ path
      · simpa [Log.writeLog, Log.writeToFile, Log.enabledFile, LogEvent.fails,
          LogEvent.opens] using failures
    | some residue =>
      refine ⟨⟨?_, ?_⟩, ?_, shorter _, ?_⟩
      · simp [Log.writeLog, Log.writeToFile]
      · simp [Log.writeLog, Log.writeToFile]
      · refine output.snoc _ rfl ?_ fun path => append_files filePath residue path
        exact List.append_assoc _ _ _
      · simpa [Log.writeLog, Log.writeToFile, Log.enabledFile, LogEvent.fails,
          LogEvent.opens] using failures

/-- A record that is taken waits behind the others. -/
theorem Log.Explained.logImpl (explained : log.Explained files events) (level : LogLevel)
    (timestamp : List Byte) (location : SourceLocation) (message : List Byte) :
    (log.logImpl level timestamp location message).Explained files
      (events ++ log.events (.logImpl level timestamp location message)) := by
  rw [Log.logImpl, Log.events]
  -- A record below the level is not taken.
  by_cases low : level.rank < log.handler.minLevel.rank
  · rw [if_pos low, if_pos low, List.append_nil]
    exact explained
  · rw [if_neg low, if_neg low]
    refine ⟨⟨explained.truthful.enabled, explained.truthful.failed⟩, ?_, ?_, ?_⟩
    · exact explained.output.snoc _ (List.append_nil _).symm (List.append_nil _).symm
        fun path => (List.append_nil _).symm
    · simp [List.filterMap_cons, LogEvent.accepted?, LogEvent.written?, explained.queue]
    · simpa [LogEvent.fails, LogEvent.opens] using explained.failures

/-- Every step adds to the events what explains it. -/
theorem logStep_explained (explained : log.Explained files events) {label : LogLabel}
    (taken : logStep log label = some next) :
    next.Explained files (events ++ log.events label) := by
  -- Another minimum level changes nothing that is explained.
  have leveled (level : LogLevel) : Log.Explained files
      { log with handler := { log.handler with minLevel := level } } events :=
    ⟨⟨explained.truthful.enabled, explained.truthful.failed⟩, explained.output, explained.queue,
      explained.failures⟩
  cases label with
  | initialize_ filePath minLevel opens late =>
    cases taken
    rw [Log.initialize_, Log.events]
    by_cases empty : filePath = []
    · rw [if_pos empty, if_pos empty, List.append_nil]
      exact leveled minLevel
    · rw [if_neg empty, if_neg empty]
      exact (leveled minLevel).enableFileOutput filePath opens late
  | setMinLevel level =>
    cases taken
    simpa [Log.events] using leveled level
  | enableFileOutput filePath opens late =>
    cases taken
    exact explained.enableFileOutput filePath opens late
  | disableFileOutput late =>
    cases taken
    exact explained.disableFileOutput late
  | logImpl level timestamp location message =>
    cases taken
    exact explained.logImpl level timestamp location message
  | returnCall call =>
    simp only [logStep] at taken
    split at taken <;> cases taken
    refine ⟨⟨explained.truthful.enabled, explained.truthful.failed⟩, ?_, ?_, ?_⟩
    · exact explained.output.snoc (.returned call) (List.append_nil _).symm
        (List.append_nil _).symm fun path => (List.append_nil _).symm
    · simpa [Log.events, Log.returnCall, List.filterMap_cons, LogEvent.accepted?,
        LogEvent.written?] using explained.queue
    · have failures := explained.failures
      simp only [Log.events, List.countP_append]
      exact failures
  | writeLog stray residue =>
    simp only [logStep] at taken
    split at taken <;> cases taken
    rename_i task rest first
    simpa [Log.events, first] using explained.writeLog first (log.readLevel task stray) residue

section Levels

/-- Closing the stream concerns no call of `LogImpl`. -/
theorem close_calls (log : Log) (late : List Byte) :
    (log.close late).calls = log.calls ∧ (log.close late).levels = log.levels ∧
      ∀ event ∈ log.closeEvents late, event.callless = true ∧ event.written? = none := by
  -- At most one event is remembered, and it is the one of a file.
  unfold Log.close Log.closeEvents
  cases log.handler.fileStream.file with
  | none => exact ⟨rfl, rfl, by simp⟩
  | some file =>
    refine ⟨rfl, rfl, fun event member => ?_⟩
    split at member <;> simp at member
    subst member
    exact ⟨rfl, rfl⟩

/-- Enabling the output to a file concerns no call of `LogImpl`. -/
theorem enable_calls (log : Log) (filePath : List Byte) (opens : Bool) (late : List Byte) :
    (log.enableFileOutput filePath opens late).calls = log.calls ∧
      (log.enableFileOutput filePath opens late).levels = log.levels ∧
      ∀ event ∈ log.enableEvents filePath opens late,
        event.callless = true ∧ event.written? = none := by
  obtain ⟨calls, levels, callless⟩ := close_calls log late
  unfold Log.enableFileOutput Log.enableEvents
  refine ⟨by split <;> exact calls, by split <;> exact levels, fun event member => ?_⟩
  rcases List.mem_append.mp member with closes | last
  · exact callless event closes
  · rw [List.mem_singleton.mp last]
    split <;> exact ⟨rfl, rfl⟩

/-- A task that is invoked concerns no call of `LogImpl`. -/
theorem writeLog_calls (log : Log) (record : LogRecord) (residue : Option (List Byte)) :
    (log.writeLog record residue).calls = log.calls ∧
      (log.writeLog record residue).levels = log.levels := by
  unfold Log.writeLog
  dsimp only
  split
  · unfold Log.writeToFile
    split
    · split <;> exact ⟨rfl, rfl⟩
    · exact ⟨rfl, rfl⟩
  · exact ⟨rfl, rfl⟩

/-- An event without a call is no request of a task. -/
theorem LogEvent.accepted?_of_callless {event : LogEvent} (callless : event.callless = true) :
    event.accepted? = none := by
  cases event <;> first | rfl | cases callless

/-- Events without calls leave the numbers of the calls as they are. -/
theorem Log.Numbered.aside (numbered : log.Numbered events) {more : List LogEvent}
    (callless : ∀ event ∈ more, event.callless = true) (calls : next.calls = log.calls)
    (levels : next.levels = log.levels) : next.Numbered (events ++ more) := by
  have unrequested : more.filterMap LogEvent.accepted? = [] :=
    List.filterMap_eq_nil_iff.mpr fun event member =>
      LogEvent.accepted?_of_callless (callless event member)
  -- A request or a return among all the events is one of those before.
  have earlier {event : LogEvent} (member : event ∈ events ++ more)
      (called : event.callless = false) : event ∈ events := by
    rcases List.mem_append.mp member with early | late
    · exact early
    · rw [callless event late] at called
      cases called
  obtain ⟨fresh, distinct, alive, unborn⟩ := numbered
  refine ⟨fun task level member => ?_, ?_, fun task level member => ?_, fun call beyond => ?_⟩
  · rw [calls]
    exact fresh task level (earlier member rfl)
  · rw [List.filterMap_append, unrequested, List.append_nil]
    exact distinct
  · rw [levels]
    exact (alive task level (earlier member rfl)).imp_left (List.mem_append_left more)
  · rw [calls] at beyond
    rw [levels]
    exact ⟨(unborn call beyond).1, fun returned => (unborn call beyond).2 (earlier returned rfl)⟩

/-- A call that requests its task gets the next number, and its parameter is alive. -/
theorem Log.Numbered.request (numbered : log.Numbered events) (task : LogTask) (level : LogLevel)
    (number : task.call = log.calls) (calls : next.calls = log.calls + 1)
    (levels : next.levels = Function.update log.levels log.calls (some level)) :
    next.Numbered (events ++ [.accepted task level]) := by
  obtain ⟨fresh, distinct, alive, unborn⟩ := numbered
  refine ⟨fun other own member => ?_, ?_, fun other own member => ?_, fun call beyond => ?_⟩
  · rw [calls]
    rcases List.mem_append.mp member with earlier | last
    · exact Nat.lt_succ_of_lt (fresh other own earlier)
    · cases List.mem_singleton.mp last
      omega
  · -- No earlier call has the number.
    rw [List.filterMap_append, List.map_append, List.nodup_append]
    refine ⟨distinct, by simp [LogEvent.accepted?], fun call member other last => ?_⟩
    obtain ⟨earlier, requested, rfl⟩ := List.mem_map.mp member
    obtain ⟨event, member, accepted⟩ := List.mem_filterMap.mp requested
    have same : other = log.calls := by simpa [LogEvent.accepted?, number] using last
    cases event with
    | accepted requested own =>
      cases accepted
      have before := fresh _ _ member
      omega
    | _ => cases accepted
  · -- The parameters of the earlier calls stay where they are.
    rw [levels]
    rcases List.mem_append.mp member with earlier | last
    · rcases alive other own earlier with returned | stays
      · exact .inl (List.mem_append_left _ returned)
      · have different := Nat.ne_of_lt (fresh other own earlier)
        exact .inr (by rw [Function.update_of_ne different, stays])
    · cases List.mem_singleton.mp last
      exact .inr (by rw [number, Function.update_self])
  · rw [calls] at beyond
    obtain ⟨dead, unreturned⟩ := unborn call (by omega)
    rw [levels, Function.update_of_ne (by omega : call ≠ log.calls)]
    exact ⟨dead, by simpa using unreturned⟩

/-- A call that returns has been under way, and its parameter is gone behind it. -/
theorem Log.Numbered.returnCall (numbered : log.Numbered events) {call : Nat}
    (alive : (log.levels call).isSome) :
    (log.returnCall call).Numbered (events ++ [.returned call]) := by
  obtain ⟨fresh, distinct, keeps, unborn⟩ := numbered
  refine ⟨fun task level member => fresh task level (by simpa using member), ?_,
    fun task level member => ?_, fun other beyond => ?_⟩
  · simpa [List.filterMap_cons, LogEvent.accepted?] using distinct
  · -- The call that returns is remembered, and the others are as they were.
    by_cases same : task.call = call
    · exact .inl (by simp [same])
    · rcases keeps task level (by simpa using member) with returned | stays
      · exact .inl (List.mem_append_left _ returned)
      · exact .inr ((Function.update_of_ne same ..).trans stays)
  · -- The number of the call is below that of the calls to come.
    obtain ⟨dead, unreturned⟩ := unborn other beyond
    have different : other ≠ call := by
      rintro rfl
      rw [dead] at alive
      cases alive
    exact ⟨(Function.update_of_ne different ..).trans dead, by simp [different, unreturned]⟩

/-- Events that invoke no task leave what has been read as it is. -/
theorem Leveled.aside (leveled : Leveled events) {more : List LogEvent}
    (unwritten : ∀ event ∈ more, event.written? = none) : Leveled (events ++ more) := by
  intro i task level file residue found
  -- An invocation is among the earlier events, with the same events in front of it.
  by_cases inside : i < events.length
  · rw [List.getElem?_append_left inside] at found
    rw [List.take_append_of_le_length (Nat.le_of_lt inside)]
    exact leveled i task level file residue found
  · rw [List.getElem?_append_right (Nat.not_lt.mp inside)] at found
    have none_ := unwritten _ (List.mem_of_getElem? found)
    cases none_

/-- The first task of the queue reads the level of its call, unless that has returned. -/
theorem Leveled.write (leveled : Leveled events) (numbered : log.Numbered events)
    {task : LogTask} (requested : task ∈ events.filterMap LogEvent.accepted?)
    (stray : Option LogLevel) (file residue : Option (List Byte)) :
    Leveled (events ++ [.written task (log.readLevel task stray) file residue]) := by
  intro i other level file' residue' found
  by_cases inside : i < events.length
  · rw [List.getElem?_append_left inside] at found
    rw [List.take_append_of_le_length (Nat.le_of_lt inside)]
    exact leveled i other level file' residue' found
  · -- The invocation is the last event, and all the others stand in front of it.
    have last : i = events.length := by
      have bound := (List.getElem?_eq_some_iff.mp found).1
      rw [List.length_append, List.length_singleton] at bound
      omega
    subst last
    rw [List.getElem?_concat_length] at found
    cases found
    rw [List.take_left]
    -- The request of the task is among the earlier events, with the level of its call.
    obtain ⟨event, member, accepted⟩ := List.mem_filterMap.mp requested
    cases event with
    | accepted own level =>
      cases accepted
      refine (numbered.alive _ level member).imp_right fun alive => ⟨level, member, ?_⟩
      rw [Log.readLevel, alive]
    | _ => cases accepted

/-- Every step keeps the numbers of the calls, and what the tasks have read. -/
theorem logStep_leveled (explained : log.Explained files events) (numbered : log.Numbered events)
    (leveled : Leveled events) {label : LogLabel} (taken : logStep log label = some next) :
    next.Numbered (events ++ log.events label) ∧ Leveled (events ++ log.events label) := by
  -- A step that neither requests nor invokes a task, and in which no call returns.
  have elsewhere {more : List LogEvent}
      (aside : next.calls = log.calls ∧ next.levels = log.levels ∧
        ∀ event ∈ more, event.callless = true ∧ event.written? = none) :
      next.Numbered (events ++ more) ∧ Leveled (events ++ more) := by
    obtain ⟨calls, levels, callless⟩ := aside
    exact ⟨numbered.aside (fun event member => (callless event member).1) calls levels,
      leveled.aside fun event member => (callless event member).2⟩
  cases label with
  | initialize_ filePath minLevel opens late =>
    cases taken
    apply elsewhere
    rw [Log.initialize_, Log.events]
    by_cases empty : filePath = []
    · rw [if_pos empty, if_pos empty]
      exact ⟨rfl, rfl, by simp⟩
    · rw [if_neg empty, if_neg empty]
      exact enable_calls { log with handler := { log.handler with minLevel := minLevel } } filePath
        opens late
  | setMinLevel level =>
    cases taken
    exact elsewhere ⟨rfl, rfl, by simp [Log.events]⟩
  | enableFileOutput filePath opens late =>
    cases taken
    exact elsewhere (enable_calls log filePath opens late)
  | disableFileOutput late =>
    cases taken
    exact elsewhere (close_calls { log with
      handler := { log.handler with fileEnabled := false } } late)
  | logImpl level timestamp location message =>
    cases taken
    rw [Log.logImpl, Log.events]
    -- A record below the level leads to no task.
    split
    · rw [List.append_nil]
      exact ⟨numbered, leveled⟩
    · exact ⟨numbered.request _ level rfl rfl rfl, leveled.aside (by simp [LogEvent.written?])⟩
  | returnCall call =>
    simp only [logStep] at taken
    split at taken <;> cases taken
    rename_i alive
    exact ⟨numbered.returnCall alive, leveled.aside (by simp [Log.events, LogEvent.written?])⟩
  | writeLog stray residue =>
    simp only [logStep] at taken
    split at taken <;> cases taken
    rename_i task rest first
    obtain ⟨calls, levels⟩ := writeLog_calls { log with handler := { log.handler with
      taskQueue := rest } } (task.record (log.readLevel task stray)) residue
    have requested : task ∈ events.filterMap LogEvent.accepted? := by
      rw [explained.queue, first]
      simp
    rw [Log.events, first]
    exact ⟨numbered.aside (by simp [LogEvent.callless]) calls levels,
      leveled.write numbered requested stray log.enabledFile residue⟩

end Levels

/--
Every record that is taken is written once, in order, and to the file that is enabled.

In every run of calls and tasks, in which files may fail to open and writes may fail: the records
taken are those written and then those that wait; standard output has the line of each written one;
a file has what it had before, then the whole lines written while it was enabled, with what failed
writes have left between them; standard error has one report for each failure, and never the one of
an invalid stream; and the output to a file is enabled exactly if the stream is open on it and
sound. The level in a line is that of the call, unless the call of `LogImpl` has returned before.
-/
theorem log_explained {labels : List LogLabel}
    (run : Run (track logStep logObserve) anyStep (Log.init files, []) labels (log, events)) :
    log.Explained files events ∧ log.Numbered events ∧ Leveled events := by
  -- The events are collected along the run.
  refine run.invariant (P := fun seen : Log × List LogEvent => seen.1.Explained files seen.2 ∧
    seen.1.Numbered seen.2 ∧ Leveled seen.2) ?_ ?_
  · refine ⟨init_explained files, ⟨by simp, by simp, by simp, fun call _ => ⟨rfl, by simp⟩⟩, ?_⟩
    simp [Leveled]
  · rintro ⟨log, before⟩ label ⟨next, after⟩ ⟨explained, numbered, leveled⟩ _ taken
    obtain ⟨stepped, recorded⟩ := track_eq_some.mp taken
    rw [← recorded]
    exact ⟨logStep_explained explained stepped, logStep_leveled explained numbered leveled stepped⟩

/--
Three records are written while a file is enabled, and the second write to the file fails.

The last one is written when its call has returned, and another level is read for it.
-/
def secondFails : List LogLabel :=
  let location : SourceLocation := ⟨[47, 97], 1, [102]⟩
  [.enableFileOutput [108] true [], .logImpl .info [48] location [120], .writeLog none none,
    .returnCall 0, .setMinLevel .error, .logImpl .info [49] location [120],
    .logImpl .error [50] location [121], .logImpl .fatal [51] location [122],
    .writeLog none (some [63]), .returnCall 2, .writeLog (some .info) none,
    .disableFileOutput [33]]

/-- Standard output has the lines of all three, and the file has the first and what was left. -/
theorem log_explained_secondFails :
    ∃ (log : Log) (events : List LogEvent),
      (log.Explained (fun _ => []) events ∧ log.Numbered events ∧ Leveled events) ∧
      log.output.files [108] = Text.ofString "0 [INFO] [a:1 f] : x\n?!" ∧
      log.output.stdout = Text.ofString
        "0 [INFO] [a:1 f] : x\n2 [ERROR] [a:1 f] : y\n3 [INFO] [a:1 f] : z\n" := by
  have executed : (exec (track logStep logObserve) (Log.init fun _ => [], []) secondFails).any
      fun seen => seen.1.output.files [108] = Text.ofString "0 [INFO] [a:1 f] : x\n?!" ∧
        seen.1.output.stdout = Text.ofString
          "0 [INFO] [a:1 f] : x\n2 [ERROR] [a:1 f] : y\n3 [INFO] [a:1 f] : z\n" := by
    decide +kernel
  obtain ⟨⟨log, events⟩, reached, values⟩ := (Option.any_eq_true _ _).mp executed
  exact ⟨log, events, log_explained (.of_exec reached), of_decide_eq_true values⟩

end Braid.Util
