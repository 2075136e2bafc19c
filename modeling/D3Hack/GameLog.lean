import D3Hack.Runs
import D3Hack.SystemAllocator

/-!
# The game's log

Lines logged before the game's logger is bound wait in a buffer (`gameLogMaybeBuffered`), and
`configureGameFileLogging` hands them over once the logger is there. A line logged when the
logger is ready goes to it at once, past the lines that still wait.

`along_logOk`: as long as no line is logged to a ready logger while others wait, the lines are
handed over in the order they were logged, none twice, and a flush leaves out only those that
the full buffer refused.
-/

namespace D3Hack

open Calls Runs

/-- `OutputStreamType`, the streams that get a file. -/
inductive OutputStreamType where
  | default | boot | sync | streaming | battlenet | locks | notifications | trade | leaderboard
  | riftstats
  deriving DecidableEq

/-- `kLogStreams`. -/
def logStreams : List (OutputStreamType × String) :=
  [(.default, "Debug.txt"), (.boot, "Boot.txt"), (.sync, "Sync.txt"),
    (.streaming, "Streaming.log"), (.battlenet, "Battlenet.log"), (.locks, "locks.log"),
    (.notifications, "Notifications.log"), (.trade, "Trade.log"),
    (.leaderboard, "Leaderboard.log"), (.riftstats, "RiftStats.log")]

/-- Each stream has a file of its own, the leaderboard too. -/
theorem nodup_logStreams : (logStreams.map Prod.snd).Nodup := by decide

/-- `kGameLogBufferMaxBytes`. -/
def gameLogBufferMaxBytes : ℕ := 64 * 1024

/-- `kGameLogPrefix`. -/
def gameLogPrefix : List UInt8 := [58, 32]

/-- `'\n'`. -/
def newline : UInt8 := 10

/-- What the game has bound so far of its logger and its error manager. -/
structure LogSymbols where
  traceInternalLog : Bool := false
  emGlobals : Bool := false
  enableLocalLogging : Bool := false
  setLogStreamDirectory : Bool := false
  setLogStreamFilename : Bool := false

/-- The globals of the logging, and what was given to the game: the text of each
`TraceInternal_Log` call and the file of each stream. -/
structure GameLog where
  symbols : LogSymbols := {}
  buffer : Option Buffer := none
  handed : List (List UInt8) := []
  streamFiles : List (OutputStreamType × String) := []

/-- `IsGameLogReady`. -/
def isGameLogReady (log : GameLog) : Bool :=
  log.symbols.traceInternalLog && log.symbols.emGlobals

/-- `GetGameLogBuffer`. -/
def getGameLogBuffer (allocator : Bool) (log : GameLog) : Option Buffer × GameLog :=
  match log.buffer with
  | some buffer => (some buffer, log)
  | none =>
    if allocator then
      let buffer : Buffer := { hasAllocator := true }
      (some buffer, { log with buffer := some buffer })
    else (none, log)

/-- `EmitGameLogLine`. -/
def emitGameLogLine (log : GameLog) (line : List UInt8) : GameLog :=
  if log.symbols.traceInternalLog then { log with handed := log.handed ++ [line] } else log

/-- The lines that `FlushGameLogBufferIfReady` finds in its view, each with its newline; `line`
is what lies between the cursor and the place that `memchr` has reached. -/
def flushLines (line : List UInt8) : List UInt8 → List (List UInt8)
  | [] => if line = [] then [] else [line]
  | c :: view =>
    if c = newline then (line ++ [c]) :: flushLines [] view else flushLines (line ++ [c]) view

/-- `FlushGameLogBufferIfReady`. -/
def flushGameLogBufferIfReady (log : GameLog) : GameLog :=
  match log.buffer with
  | some buffer =>
    if isGameLogReady log = false ∨ buffer.data.length = 0 then log
    else { (flushLines [] buffer.data).foldl emitGameLogLine log with buffer := none }
  | none => log

/-- `ConfigureGameFileLogging`; the directory that it sets is the game's own. -/
def configureGameFileLogging (log : GameLog) : GameLog :=
  if log.symbols.enableLocalLogging && log.symbols.setLogStreamDirectory &&
      log.symbols.setLogStreamFilename then
    flushGameLogBufferIfReady { log with streamFiles := log.streamFiles ++ logStreams }
  else log

variable {Site : Type} (place : ℕ → Site)

/-- `GameLogMaybeBuffered`; `allocator` says whether the system allocator is there. -/
def gameLogMaybeBuffered (allocator : Bool) (string : List UInt8) (log : GameLog) :
    FsProg Site GameLog :=
  if string = [] then pure log
  else if isGameLogReady log then
    pure { log with handed := log.handed ++ [gameLogPrefix ++ string ++ [newline]] }
  else
    match getGameLogBuffer allocator log with
    | (none, log) => pure log
    | (some buffer, log) =>
      let totalNeeded := gameLogPrefix.length + string.length + 1
      if buffer.ok = false then pure log
      else if buffer.data.length + totalNeeded > gameLogBufferMaxBytes then pure log
      else do
        let (_, buffer) ← buffer.append place gameLogPrefix
        let (_, buffer) ← buffer.append place string
        let (_, buffer) ← buffer.append place [newline]
        pure { log with buffer := some buffer }

/-! ## Runs -/

/-- A line to be logged. -/
structure LogLine where
  chars : List UInt8
  ne : chars ≠ []
  noNewline : newline ∉ chars

/-- The text of a line in the game's log. -/
def gameLogLine (line : LogLine) : List UInt8 := gameLogPrefix ++ line.chars ++ [newline]

/-- What waits in the buffer. -/
def GameLog.waiting (log : GameLog) : List UInt8 := (log.buffer.map Buffer.data).getD []

/-- There is room for the line, in the buffer or in a logger that is ready. -/
def GameLog.HasRoom (log : GameLog) (line : LogLine) : Prop :=
  isGameLogReady log = true ∨
    log.waiting.length + (gameLogLine line).length ≤ gameLogBufferMaxBytes

instance (log : GameLog) (line : LogLine) : Decidable (log.HasRoom line) :=
  inferInstanceAs (Decidable (_ ∨ _))

/-- The logging with its history: the lines logged, those there was room for, and those of them
logged before the last flush. -/
structure LogRun where
  log : GameLog := {}
  logged : List LogLine := []
  kept : List LogLine := []
  flushed : List LogLine := []

/-- A line that is logged, or one of the two things that open the log. -/
inductive LogEvent where
  | line (line : LogLine)
  | symbols (symbols : LogSymbols)
  | configure

/-- The log after a call whose allocations all succeed. -/
def logGiven (line : LogLine) (log : GameLog) : GameLog :=
  match ((gameLogMaybeBuffered id true line.chars log).run (faulty fun _ => false)
    fun _ => none).1 with
  | .value log => log
  | .aborted _ => log

/-- The configuration reaches a flush, with the logger ready. -/
def flushes (log : GameLog) : Bool :=
  log.symbols.enableLocalLogging && log.symbols.setLogStreamDirectory &&
    log.symbols.setLogStreamFilename && isGameLogReady log

/-- What an event does. -/
def logStep (s : LogRun) : LogEvent → LogRun
  | .line line =>
    { s with
      log := logGiven line s.log
      logged := s.logged ++ [line]
      kept := if s.log.HasRoom line then s.kept ++ [line] else s.kept }
  | .symbols symbols => { s with log := { s.log with symbols } }
  | .configure =>
    { s with
      log := configureGameFileLogging s.log
      flushed := if flushes s.log then s.kept else s.flushed }

/-- The lines were handed over in the order they were logged and none twice, and those of before
the last flush were all handed over but for the ones there was no room for. -/
structure LogOk (s : LogRun) : Prop where
  inOrder : s.log.handed.Sublist (s.logged.map gameLogLine)
  complete : (s.flushed.map gameLogLine).Sublist s.log.handed

/-- No line goes to a logger that is ready while others wait. -/
def NoOvertaking (s : LogRun) : LogEvent → Prop
  | .line _ => isGameLogReady s.log = true → s.log.waiting = []
  | _ => True

/-! ## What a call does -/

theorem length_gameLogLine (line : LogLine) :
    (gameLogLine line).length = gameLogPrefix.length + (line.chars.length + 1) := by
  simp [gameLogLine]

/-- A line goes to a logger that is ready. -/
theorem logGiven_of_ready (line : LogLine) {log : GameLog} (hready : isGameLogReady log = true) :
    logGiven line log = { log with handed := log.handed ++ [gameLogLine line] } := by
  rw [logGiven, gameLogMaybeBuffered, if_neg line.ne, if_pos hready]
  rfl

/-- The buffer, if there is one, is of use. -/
def BufferOk (log : GameLog) : Prop :=
  ∀ buffer ∈ log.buffer, buffer.ok = true ∧ buffer.hasAllocator = true

/-- The buffer of a call: the one there is, or a new one. -/
theorem getGameLogBuffer_spec {log : GameLog} (hok : BufferOk log) : ∃ buffer : Buffer,
    getGameLogBuffer true log = (some buffer, { log with buffer := some buffer }) ∧
      buffer.ok = true ∧ buffer.hasAllocator = true ∧ buffer.data = log.waiting := by
  obtain ⟨symbols, _ | buffer, handed, streamFiles⟩ := log
  · exact ⟨{ hasAllocator := true }, rfl, rfl, rfl, rfl⟩
  · obtain ⟨hbuffer, hallocator⟩ := hok buffer rfl
    exact ⟨buffer, rfl, hbuffer, hallocator, rfl⟩

/-- The three pieces of a line, one after the other. -/
theorem append_line {buffer : Buffer} (hallocator : buffer.hasAllocator = true)
    (string : List UInt8)
    (hsize : buffer.data.length + (gameLogPrefix.length + (string.length + 1)) ≤ Buffer.sizeMax)
    (f : Buffer → FsProg ℕ GameLog) : ∃ capacity,
    Prog.run (faulty fun _ => false) (do
      let (_, buffer) ← buffer.append id gameLogPrefix
      let (_, buffer) ← buffer.append id string
      let (_, buffer) ← buffer.append id [newline]
      f buffer) (fun _ => none) =
    (f { buffer with data := buffer.data ++ (gameLogPrefix ++ string ++ [newline]), capacity }).run
      (faulty fun _ => false) fun _ => none := by
  have happend {b : Buffer} (hb : b.hasAllocator = true) (piece : List UInt8)
      (hp : b.data.length + piece.length ≤ Buffer.sizeMax) :=
    Buffer.append_given id (fun _ : ℕ => false) (fun _ => none) (fun _ => rfl) hb piece hp
  obtain ⟨capacity₁, hrun₁⟩ := happend hallocator gameLogPrefix (by omega)
  rw [Prog.run_bind_value _ hrun₁]
  set buffer₁ : Buffer :=
    { buffer with data := buffer.data ++ gameLogPrefix, capacity := capacity₁ } with hbuffer₁
  have hdata₁ : buffer₁.data.length = buffer.data.length + gameLogPrefix.length := by
    simp [hbuffer₁]
  obtain ⟨capacity₂, hrun₂⟩ := happend (b := buffer₁) hallocator string (by omega)
  dsimp only
  rw [Prog.run_bind_value _ hrun₂]
  set buffer₂ : Buffer :=
    { buffer₁ with data := buffer₁.data ++ string, capacity := capacity₂ } with hbuffer₂
  have hdata₂ : buffer₂.data.length = buffer₁.data.length + string.length := by
    simp [hbuffer₂]
  have hlast : buffer₂.data.length + [newline].length ≤ Buffer.sizeMax := by
    rw [List.length_singleton]
    omega
  obtain ⟨capacity₃, hrun₃⟩ := happend (b := buffer₂) hallocator [newline] hlast
  dsimp only
  rw [Prog.run_bind_value _ hrun₃]
  refine ⟨capacity₃, ?_⟩
  simp only [hbuffer₂, hbuffer₁, List.append_assoc]

/-- Without a logger, a line there is room for is added to the buffer, and any other dropped. -/
theorem logGiven_of_not_ready (line : LogLine) {log : GameLog} (hok : BufferOk log)
    (hready : isGameLogReady log = false) : ∃ buffer : Buffer,
    logGiven line log = { log with buffer := some buffer } ∧ buffer.ok = true ∧
      buffer.hasAllocator = true ∧
      buffer.data = if log.HasRoom line then log.waiting ++ gameLogLine line else log.waiting := by
  obtain ⟨buffer, hget, hbuffer, hallocator, hdata⟩ := getGameLogBuffer_spec hok
  have hroom : log.HasRoom line ↔
      buffer.data.length + (gameLogLine line).length ≤ gameLogBufferMaxBytes := by
    simp [GameLog.HasRoom, hready, hdata]
  rw [length_gameLogLine] at hroom
  rw [logGiven, gameLogMaybeBuffered, if_neg line.ne, if_neg (by simp [hready]), hget]
  dsimp only
  rw [if_neg (by simp [hbuffer])]
  by_cases hfits : log.HasRoom line
  · have hfit := hroom.1 hfits
    have hmax : gameLogBufferMaxBytes ≤ Buffer.sizeMax := by decide
    rw [if_neg (by omega)]
    obtain ⟨capacity, hrun⟩ := append_line hallocator line.chars (by omega)
      fun buffer => pure { log with buffer := some buffer }
    rw [hrun]
    refine ⟨_, rfl, hbuffer, hallocator, ?_⟩
    rw [if_pos hfits, hdata, gameLogLine]
  · have hfull := mt hroom.2 hfits
    rw [if_pos (by omega)]
    exact ⟨buffer, rfl, hbuffer, hallocator, by rw [if_neg hfits, hdata]⟩

/-! ## What a flush does -/

/-- A body without a newline is one line. -/
theorem flushLines_append {body : List UInt8} (hbody : newline ∉ body) (line rest : List UInt8) :
    flushLines line (body ++ newline :: rest) =
      (line ++ body ++ [newline]) :: flushLines [] rest := by
  induction body generalizing line with
  | nil => simp [flushLines]
  | cons c body ih =>
    obtain ⟨hc, hbody⟩ := not_or.1 (mt List.mem_cons.2 hbody)
    rw [List.cons_append, flushLines, if_neg (Ne.symm hc), ih hbody]
    simp

/-- The flush finds the lines that were put in. -/
theorem flushLines_flatten (lines : List LogLine) :
    flushLines [] (lines.map gameLogLine).flatten = lines.map gameLogLine := by
  induction lines with
  | nil => rfl
  | cons line lines ih =>
    have hbody : newline ∉ gameLogPrefix ++ line.chars := by
      rw [List.mem_append, not_or]
      exact ⟨by decide, line.noNewline⟩
    rw [List.map_cons, List.flatten_cons, gameLogLine, List.append_assoc, List.singleton_append,
      flushLines_append hbody, ih, List.nil_append]

theorem foldl_emitGameLogLine (lines : List (List UInt8)) {log : GameLog}
    (hlog : log.symbols.traceInternalLog = true) :
    lines.foldl emitGameLogLine log = { log with handed := log.handed ++ lines } := by
  induction lines generalizing log with
  | nil => simp
  | cons line lines ih =>
    rw [List.foldl_cons, emitGameLogLine, if_pos hlog, ih, List.append_assoc,
      List.singleton_append]
    exact hlog

/-- `lines` wait in the buffer. -/
structure Waits (log : GameLog) (lines : List LogLine) : Prop where
  bufferOk : BufferOk log
  waiting : log.waiting = (lines.map gameLogLine).flatten

theorem Waits.eq_nil {log : GameLog} {lines : List LogLine} (h : Waits log lines)
    (hempty : log.waiting = []) : lines = [] := by
  rcases lines with _ | ⟨line, lines⟩
  · rfl
  · have hlines := h.waiting.symm.trans hempty
    simp [gameLogLine, gameLogPrefix] at hlines

theorem waits_of_none {log : GameLog} (h : log.buffer = none) : Waits log [] := by
  refine ⟨fun buffer hbuffer => ?_, ?_⟩
  · rw [h] at hbuffer
    cases hbuffer
  · rw [GameLog.waiting, h]
    rfl

/-- A flush hands over what waits, in order. -/
theorem flushGameLogBufferIfReady_spec {log : GameLog} {lines : List LogLine}
    (h : Waits log lines) (hready : isGameLogReady log = true) : ∃ buffer,
    flushGameLogBufferIfReady log =
      { log with buffer, handed := log.handed ++ lines.map gameLogLine } ∧
    Waits { log with buffer, handed := log.handed ++ lines.map gameLogLine } [] := by
  obtain ⟨htrace, -⟩ := Bool.and_eq_true_iff.1 hready
  rcases hb : log.buffer with _ | buffer
  · have hempty : log.waiting = [] := by rw [GameLog.waiting, hb]; rfl
    rw [h.eq_nil hempty]
    refine ⟨none, ?_, waits_of_none rfl⟩
    rw [flushGameLogBufferIfReady, hb]
    simp [← hb]
  · have hwaiting : log.waiting = buffer.data := by rw [GameLog.waiting, hb]; rfl
    by_cases hlength : buffer.data.length = 0
    · rw [h.eq_nil (hwaiting.trans (List.length_eq_zero_iff.1 hlength))]
      refine ⟨some buffer, ?_, fun b hs => h.bufferOk b (hb.trans hs), ?_⟩
      · rw [flushGameLogBufferIfReady, hb]
        dsimp only
        rw [if_pos (Or.inr hlength)]
        simp [← hb]
      · exact List.length_eq_zero_iff.1 hlength
    · refine ⟨none, ?_, waits_of_none rfl⟩
      rw [flushGameLogBufferIfReady, hb]
      dsimp only
      rw [if_neg (by simp [hready, hlength]), ← hwaiting, h.waiting, flushLines_flatten,
        foldl_emitGameLogLine _ htrace]

theorem flushGameLogBufferIfReady_of_not_ready {log : GameLog} (h : isGameLogReady log = false) :
    flushGameLogBufferIfReady log = log := by
  rw [flushGameLogBufferIfReady]
  split
  · rw [if_pos (Or.inl h)]
  · rfl

theorem configureGameFileLogging_of_flushes {log : GameLog} (h : flushes log = true) :
    configureGameFileLogging log =
      flushGameLogBufferIfReady { log with streamFiles := log.streamFiles ++ logStreams } := by
  rw [flushes, Bool.and_eq_true_iff] at h
  rw [configureGameFileLogging, if_pos h.1]

/-- A configuration that does not reach a flush leaves the lines alone. -/
theorem configureGameFileLogging_of_not_flushes {log : GameLog} (h : flushes log = false) :
    ∃ streamFiles, configureGameFileLogging log = { log with streamFiles } := by
  rw [configureGameFileLogging]
  split_ifs with hsymbols
  · have hready : isGameLogReady log = false := by simpa [flushes, hsymbols] using h
    exact ⟨log.streamFiles ++ logStreams, flushGameLogBufferIfReady_of_not_ready hready⟩
  · exact ⟨log.streamFiles, rfl⟩

/-! ## Runs of the log -/

/-- Every line there was room for was handed over or waits, in order. -/
structure LogInv (s : LogRun) (lines : List LogLine) : Prop where
  waits : Waits s.log lines
  handed : s.log.handed ++ lines.map gameLogLine = s.kept.map gameLogLine
  kept : s.kept.Sublist s.logged
  flushed : (s.flushed.map gameLogLine).Sublist s.log.handed

theorem logOk_of_logInv {s : LogRun} {lines : List LogLine} (h : LogInv s lines) : LogOk s := by
  refine ⟨?_, h.flushed⟩
  have hprefix := List.sublist_append_left s.log.handed (lines.map gameLogLine)
  rw [h.handed] at hprefix
  exact hprefix.trans (h.kept.map gameLogLine)

theorem logInv_line {s : LogRun} {lines : List LogLine} (h : LogInv s lines) (line : LogLine)
    (hfree : NoOvertaking s (.line line)) : ∃ lines', LogInv (logStep s (.line line)) lines' := by
  rcases hready : isGameLogReady s.log with _ | _
  · obtain ⟨buffer, hgiven, hok, hallocator, hdata⟩ :=
      logGiven_of_not_ready line h.waits.bufferOk hready
    rw [logStep, hgiven]
    have hbuffer : BufferOk { s.log with buffer := some buffer } := by
      intro b hb
      obtain rfl := Option.some.inj hb
      exact ⟨hok, hallocator⟩
    by_cases hroom : s.log.HasRoom line
    · rw [if_pos hroom] at hdata ⊢
      refine ⟨lines ++ [line], ⟨hbuffer, ?_⟩, ?_, h.kept.append (.refl _), h.flushed⟩
      · rw [h.waits.waiting] at hdata
        exact hdata.trans (by simp)
      · simp only [List.map_append, ← h.handed, List.append_assoc]
    · rw [if_neg hroom] at hdata ⊢
      refine ⟨lines, ⟨hbuffer, ?_⟩, h.handed, ?_, h.flushed⟩
      · exact hdata.trans h.waits.waiting
      · exact h.kept.trans (List.sublist_append_left _ _)
  · obtain rfl := h.waits.eq_nil (hfree hready)
    have hroom : s.log.HasRoom line := Or.inl hready
    rw [logStep, logGiven_of_ready line hready, if_pos hroom]
    refine ⟨[], ⟨h.waits.bufferOk, h.waits.waiting⟩, ?_, h.kept.append (.refl _), ?_⟩
    · have hhanded := h.handed
      rw [List.map_nil, List.append_nil] at hhanded ⊢
      rw [hhanded, List.map_append]
      rfl
    · exact h.flushed.trans (List.sublist_append_left _ _)

theorem logInv_configure {s : LogRun} {lines : List LogLine} (h : LogInv s lines) :
    ∃ lines', LogInv (logStep s .configure) lines' := by
  rw [logStep]
  rcases hflushes : flushes s.log with _ | _
  · obtain ⟨streamFiles, hconfigure⟩ := configureGameFileLogging_of_not_flushes hflushes
    rw [hconfigure]
    exact ⟨lines, ⟨h.waits.bufferOk, h.waits.waiting⟩, h.handed, h.kept, h.flushed⟩
  · obtain ⟨-, hready⟩ := Bool.and_eq_true_iff.1 hflushes
    have hstreams : Waits { s.log with streamFiles := s.log.streamFiles ++ logStreams } lines :=
      ⟨h.waits.bufferOk, h.waits.waiting⟩
    obtain ⟨buffer, hflush, hwaits⟩ := flushGameLogBufferIfReady_spec hstreams hready
    rw [configureGameFileLogging_of_flushes hflushes, hflush]
    refine ⟨[], hwaits, ?_, h.kept, ?_⟩
    · exact (List.append_nil _).trans h.handed
    · rw [if_pos rfl]
      exact h.handed ▸ List.Sublist.refl _

/-- A line that goes to a ready logger stays ahead of those that wait. -/
theorem handed_of_overtaking {s : LogRun} {lines : List LogLine} (h : Waits s.log lines)
    (hflushes : flushes s.log = true) (line : LogLine) :
    (run logStep s [.line line, .configure]).log.handed =
      s.log.handed ++ gameLogLine line :: lines.map gameLogLine := by
  obtain ⟨-, hready⟩ := Bool.and_eq_true_iff.1 hflushes
  have hflushes' : flushes { s.log with handed := s.log.handed ++ [gameLogLine line] } = true :=
    hflushes
  have hstreams : Waits { s.log with
      handed := s.log.handed ++ [gameLogLine line]
      streamFiles := s.log.streamFiles ++ logStreams } lines :=
    ⟨h.bufferOk, h.waiting⟩
  obtain ⟨buffer, hflush, -⟩ := flushGameLogBufferIfReady_spec hstreams hready
  have hconfigure : configureGameFileLogging
      { s.log with handed := s.log.handed ++ [gameLogLine line] } =
        { s.log with
          buffer
          handed := s.log.handed ++ [gameLogLine line] ++ lines.map gameLogLine
          streamFiles := s.log.streamFiles ++ logStreams } :=
    (configureGameFileLogging_of_flushes hflushes').trans hflush
  rw [run_cons, run_cons, run_nil, logStep, logStep, logGiven_of_ready line hready]
  dsimp only
  rw [hconfigure, List.append_assoc]
  rfl

/-- What a step keeps, as long as it lets no line overtake another. -/
theorem logInv_logStep {s : LogRun} (e : LogEvent) (h : ∃ lines, LogInv s lines)
    (hfree : NoOvertaking s e) : ∃ lines, LogInv (logStep s e) lines := by
  obtain ⟨lines, h⟩ := h
  cases e with
  | line line => exact logInv_line h line hfree
  | symbols symbols =>
    exact ⟨lines, ⟨h.waits.bufferOk, h.waits.waiting⟩, h.handed, h.kept, h.flushed⟩
  | configure => exact logInv_configure h

/-- **In every run in which no line goes to a ready logger while others wait, the lines are
handed over in the order they were logged and none twice, and after a flush only those that
there was no room for are missing.** -/
theorem along_logOk (symbols : LogSymbols) (events : List LogEvent)
    (h : StepsMeet logStep NoOvertaking { log := { symbols } } events) :
    Along logStep LogOk { log := { symbols } } events := by
  refine along_of_stepsMeet (I := fun s => ∃ lines, LogInv s lines)
    (fun s e hs hfree => logInv_logStep e hs hfree) ?_ ?_ h
  · rintro s ⟨lines, hs⟩
    exact logOk_of_logInv hs
  · exact ⟨[], waits_of_none rfl, rfl, .refl _, .refl _⟩

/-- Everything is bound. -/
def boundSymbols : LogSymbols := ⟨true, true, true, true, true⟩

/-- A line waits, is flushed, and the next one follows it. -/
theorem along_logOk_flushed : Along logStep LogOk {}
    [.line ⟨[97], by decide, by decide⟩, .symbols boundSymbols, .configure,
      .line ⟨[98], by decide, by decide⟩] := by
  refine along_logOk {} _ ⟨fun hready => ?_, trivial, trivial, fun _ => ?_, trivial⟩
  · cases hready
  · decide +kernel

/-- Of two lines, the first waits when the second goes to the logger. -/
theorem not_along_logOk_overtaken : ¬Along logStep LogOk {}
    [.line ⟨[97], by decide, by decide⟩, .symbols boundSymbols,
      .line ⟨[98], by decide, by decide⟩, .configure] := by
  intro h
  exact absurd h.2.2.2.2.inOrder (by decide +kernel)

end D3Hack
