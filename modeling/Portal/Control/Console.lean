/-
# Control.Console — the console of an operator

`ServeAdminConsole` reads lines with a `bufio.Scanner`, cuts white space off them and carries
out those that are left, one after the other, beside everything else that goes on.  Its reader
returns bytes in pieces of any size, and data or an error, as `os.Stdin` does.

`console_serves`: in every run, what was read is made of the lines handed out and of what is
in the buffer; the lines that are not blank are carried out in order, each once, and what they
print is printed in that order.  A line of 64 KiB ends the console.
-/
import Portal.Control.Command
import Portal.Theory.Scanner

namespace Portal.Control

open Portal.Theory Portal.Theory.Dialogue Portal.Theory.History Portal.Theory.Transition

set_option autoImplicit false

/-- What the console takes from the standard library. -/
structure Terminal where
  lib : Library
  /-- `strings.EqualFold` -/
  equalFold : String → String → Bool
  /-- `strings.TrimSpace` -/
  trimSpace : List UInt8 → List UInt8
  /-- `strings.Fields` -/
  fields : List UInt8 → List String

/-- `startBufSize` and `MaxScanTokenSize` of bufio. -/
def scanLimits : Scanner.Limits := ⟨4096, 65536⟩

def newline : UInt8 := 10

/-- `dropCR` of bufio: a token of `ScanLines` has no carriage return at its end. -/
def dropCR (line : List UInt8) : List UInt8 :=
  if line.getLast? = some 13 then line.dropLast else line

/-- What a call leaves behind.  Transfers and disconnects go on elsewhere. -/
def World.after (w : World) : Operation → World
  | .setDraining srv draining => { w with draining := Function.update w.draining srv draining }
  | _ => w

structure Console where
  scanner : Scanner UInt8
  /-- The line that is carried out, and what is left to do. -/
  hand : Option (List UInt8 × Program Reply)
  /-- The lines written to `w`, in order. -/
  printed : List String
  world : World
  /-- A command has panicked, and the process is gone. -/
  crashed : Bool
  /-- For the record: what was read, and the lines that were handed out. -/
  read : List UInt8
  lines : List (List UInt8)

namespace Console

inductive Deed where
  /-- a statement of `scanner.Scan` -/
  | scan (move : Scanner.Move UInt8)
  /-- the next call of a command returns -/
  | call (q : Operation) (answer : q.Answer)
  /-- a command returns and its result is printed, or it panics -/
  | finish
  /-- anything else the proxy does -/
  | others (world : World)

variable (t : Terminal)

def initial (world : World) : Console := ⟨.new, none, [], world, false, [], []⟩

/-- `strings.TrimSpace(scanner.Text())`. -/
def trimmed (token : List UInt8) : List UInt8 := t.trimSpace (dropCR token)

/-- The command of a line that is not blank. -/
def command (token : List UInt8) : Option (List UInt8 × Program Reply) :=
  let line := trimmed t token
  if line = [] then none
  else some (line, handleAdminCommand t.lib t.equalFold (t.fields line))

/-- What `fmt.Fprintln(w, result)` is called with. -/
def output (result : String) : List String := if result = "" then [] else [result]

def next (c : Console) : Deed → Option Console
  | .scan move =>
      match c.crashed, c.hand with
      | false, none =>
          (c.scanner.next scanLimits newline move).map fun scanner =>
            { c with
              scanner := scanner
              hand := (c.scanner.handed newline move).bind (command t)
              read := c.read ++ move.piece
              lines := c.lines ++ (c.scanner.handed newline move).toList }
      | _, _ => none
  | .call q answer =>
      match c.crashed, c.hand with
      | false, some (line, .ask q' k) =>
          if same : q = q' then
            some { c with hand := some (line, k (same ▸ answer)), world := c.world.after q }
          else none
      | _, _ => none
  | .finish =>
      match c.crashed, c.hand with
      | false, some (_, .pure .panicked) => some { c with hand := none, crashed := true }
      | false, some (_, .pure (.text result)) =>
          some { c with hand := none, printed := c.printed ++ output result }
      | _, _ => none
  | .others world => if c.crashed then none else some { c with world := world }

def machine (world : World) : Machine Console Deed where
  start := initial world
  next := next t

/-- A call returns what it can return at this moment. -/
def Truthful (c : Console) : Deed → Prop
  | .call q answer => c.world.Returns t.lib q answer
  | _ => True

def entries (c : Console) :
    Deed → List (Entry (List UInt8) World Operation Operation.Answer Reply)
  | .scan move =>
      (((c.scanner.handed newline move).bind (command t)).map fun p => .took p.1).toList
  | .call q answer => [.heard ⟨c.world, q, answer⟩]
  | .finish =>
      match c.hand with
      | some (line, .pure reply) => [.settled line reply]
      | _ => []
  | .others _ => []

/-- The lines that are carried out. -/
def commands (lines : List (List UInt8)) : List (List UInt8) :=
  (lines.map (trimmed t)).filter (· ≠ [])

/-- What is printed for these results. -/
def outputs (results : List (List UInt8 × Reply)) : List String :=
  results.flatMap fun result =>
    match result.2 with
    | .text s => output s
    | .panicked => []

/-- What a line does and shows. -/
def Post (line : List UInt8) (hearing : Hearing) (reply : Reply) : Prop :=
  Executed t.lib t.equalFold (t.fields line) hearing reply

variable {t} {c c' : Console}
  {log : List (Entry (List UInt8) World Operation Operation.Answer Reply)}

/-- **The step rule.** -/
theorem next_elim {d : Deed} {motive : Prop} (taken : c.next t d = some c')
    (scan : ∀ move scanner, d = .scan move → c.hand = none →
      c.scanner.next scanLimits newline move = some scanner →
      c' = { c with
        scanner := scanner
        hand := (c.scanner.handed newline move).bind (command t)
        read := c.read ++ move.piece
        lines := c.lines ++ (c.scanner.handed newline move).toList } → motive)
    (call : ∀ line q k answer, d = .call q answer → c.hand = some (line, .ask q k) →
      c' = { c with hand := some (line, k answer), world := c.world.after q } → motive)
    (panic : ∀ line, d = .finish → c.hand = some (line, .pure .panicked) →
      c' = { c with hand := none, crashed := true } → motive)
    (finish : ∀ line result, d = .finish → c.hand = some (line, .pure (.text result)) →
      c' = { c with hand := none, printed := c.printed ++ output result } → motive)
    (others : ∀ world, d = .others world → c' = { c with world := world } → motive) : motive := by
  cases d with
  | scan move =>
      simp only [next] at taken
      split at taken
      · rename_i idle
        simp only [Option.map_eq_some_iff] at taken
        obtain ⟨scanner, moved, rfl⟩ := taken
        exact scan move scanner rfl idle moved rfl
      · cases taken
  | call q answer =>
      simp only [next] at taken
      split at taken
      · rename_i line q' k running hand
        split at taken
        · rename_i same
          subst same
          cases taken
          exact call line q k answer rfl hand rfl
        · cases taken
      · cases taken
  | finish =>
      simp only [next] at taken
      split at taken
      · rename_i line running hand
        cases taken
        exact panic line rfl hand rfl
      · rename_i line result running hand
        cases taken
        exact finish line result rfl hand rfl
      · cases taken
  | others world =>
      simp only [next] at taken
      split at taken
      · cases taken
      · cases taken
        exact others world rfl rfl

/-- What holds of the console and its log. -/
structure Serving (t : Terminal) (c : Console)
    (log : List (Entry (List UInt8) World Operation Operation.Answer Reply)) : Prop where
  scanned : Scanner.Scanned scanLimits newline c.scanner c.read c.lines
  conversed : Conversed (World.Returns t.lib) (Post t) log c.hand
  commands : requests log = commands t c.lines
  printed : c.printed = outputs (results log)
  panicked : ∀ line, (line, Reply.panicked) ∈ results log → c.crashed = true

theorem serving_initial (world : World) : Serving t (initial world) [] where
  scanned := Scanner.scanned_new
  conversed := conversed_nil
  commands := rfl
  printed := rfl
  panicked := by rintro line ⟨⟩

/-- A line is carried out unless it is blank. -/
theorem commands_concat (lines : List (List UInt8)) (token : List UInt8) :
    commands t (lines ++ [token]) =
      commands t lines ++ ((command t token).map Prod.fst).toList := by
  unfold Console.commands command
  rw [List.map_append, List.filter_append]
  by_cases blank : trimmed t token = []
  · simp [blank]
  · simp [blank]

theorem command_always {token line : List UInt8} {x : Program Reply}
    (found : command t token = some (line, x)) : x.Always (World.Returns t.lib) (Post t line) := by
  simp only [command] at found
  split at found
  · cases found
  · cases found
    exact handleAdminCommand_executed _

/-- **A line is handed out**, and carried out unless it is blank. -/
theorem Serving.line {token : List UInt8} {scanner : Scanner UInt8} {read : List UInt8}
    (serving : Serving t c log) (idle : c.hand = none)
    (scanned : Scanner.Scanned scanLimits newline scanner read (c.lines ++ [token])) :
    Serving t
      { c with scanner := scanner, hand := command t token, read := read, lines := c.lines ++ [token] }
      (log ++ ((command t token).map fun p => Entry.took p.1).toList) := by
  have conversed := serving.conversed
  rw [idle] at conversed
  have more := commands_concat (t := t) c.lines token
  rw [← serving.commands] at more
  cases begins : command t token with
  | none =>
      rw [begins] at more
      simp only [Option.map_none, Option.toList_none, List.append_nil] at more ⊢
      exact ⟨scanned, conversed, more.symm, serving.printed, serving.panicked⟩
  | some p =>
      obtain ⟨line, x⟩ := p
      rw [begins] at more
      refine ⟨scanned, conversed.take (command_always begins), ?_, ?_, ?_⟩
      · rw [Option.map_some, Option.toList_some, requests_concat]
        exact more.symm
      · simpa [results_concat, Entry.result?] using serving.printed
      · simpa [results_concat, Entry.result?] using serving.panicked

/-- **Every run.** -/
theorem serving {world : World}
    (reached : ((machine t world).record (entries t)).Reach
      (fun p d => Truthful t p.1 d) (c, log)) : Serving t c log := by
  refine reached.invariant (I := fun p : Console × _ => Serving t p.1 p.2)
    (serving_initial world) ?_
  rintro ⟨c, log⟩ ⟨c', log'⟩ d _ before truthful taken
  obtain ⟨taken, rfl⟩ := Machine.record_next taken
  simp only at before taken ⊢
  have conversed := before.conversed
  refine next_elim taken ?scan ?call ?panic ?finish ?others
  case scan =>
    rintro move scanner rfl idle moved rfl
    have scanned := before.scanned.step moved
    cases found : c.scanner.handed newline move with
    | none =>
        rw [idle] at conversed
        simp only [found, entries, Option.bind_none, Option.map_none, Option.toList_none,
          List.append_nil] at scanned ⊢
        exact ⟨scanned, conversed, before.commands, before.printed, before.panicked⟩
    | some token =>
        simp only [found, entries, Option.bind_some, Option.toList_some] at scanned ⊢
        exact before.line idle scanned
  case call =>
    rintro line q k answer rfl hand rfl
    rw [hand] at conversed
    refine ⟨before.scanned, conversed.hear truthful, ?_, ?_, ?_⟩
    · simpa [entries, requests_concat, Entry.request?] using before.commands
    · simpa [entries, results_concat, Entry.result?] using before.printed
    · simpa [entries, results_concat, Entry.result?] using before.panicked
  case panic =>
    rintro line rfl hand rfl
    rw [hand] at conversed
    simp only [entries, hand]
    refine ⟨before.scanned, conversed.settle, ?_, ?_, fun _ _ => rfl⟩
    · simpa [requests_concat, Entry.request?] using before.commands
    · simpa [results_concat, Entry.result?, outputs] using before.printed
  case finish =>
    rintro line result rfl hand rfl
    rw [hand] at conversed
    simp only [entries, hand]
    refine ⟨before.scanned, conversed.settle, ?_, ?_, ?_⟩
    · simpa [requests_concat, Entry.request?] using before.commands
    · simpa [results_concat, Entry.result?, outputs] using before.printed
    · simpa [results_concat, Entry.result?] using before.panicked
  case others =>
    rintro world rfl rfl
    simp only [entries, List.append_nil]
    exact ⟨before.scanned, conversed, before.commands, before.printed, before.panicked⟩

end Console

/-- **The console carries out the lines it is given.**  Whatever the pieces were in which they
came, the bytes read so far are the lines handed out and what is in the buffer; the console
stops at the end of its input, or at 64 KiB without a newline (`Scanned`).  With an empty
buffer, the lines handed out are the lines of the text.  The lines that are
not blank are carried out in order, each once: it does what it says and nothing else, and what
it shows was so meanwhile (`Executed`), or it has called a method of a nil server and the proxy
is gone.  What is printed are the results that are not empty, in order. -/
theorem console_serves {t : Terminal} {world : World} {c : Console}
    {log : List (Entry (List UInt8) World Operation Operation.Answer Reply)}
    (reached : ((Console.machine t world).record (Console.entries t)).Reach
      (fun p d => Console.Truthful t p.1 d) (c, log)) :
    Scanner.Scanned scanLimits newline c.scanner c.read c.lines ∧
      (c.scanner.data = [] → c.lines = Scanner.linesOf newline c.read) ∧
      requests log = Console.commands t c.lines ∧
      requests log = (results log).map Prod.fst ++ (c.hand.map Prod.fst).toList ∧
      Each (fun before e => ∀ line reply, e = .settled line reply →
        Executed t.lib t.equalFold (t.fields line) (heard before) reply) log ∧
      c.printed = Console.outputs (results log) ∧
      ∀ line, (line, Reply.panicked) ∈ results log → c.crashed = true := by
  have serving := Console.serving reached
  exact ⟨serving.scanned, serving.scanned.lines_eq, serving.commands, serving.conversed.order,
    serving.conversed.each, serving.printed, serving.panicked⟩

/-! ### A run -/

/-- The words of a text of ASCII characters. -/
def asciiFields : List UInt8 → List String := fun text =>
  let (words, word) := text.foldr
    (fun b (words, word) =>
      if b = 32 then (if word = [] then words else String.ofList word :: words, [])
      else (words, Char.ofNat b.toNat :: word)) ([], [])
  if word = [] then words else String.ofList word :: words

def Terminal.ascii : Terminal where
  lib := .ascii
  equalFold := fun a b => decide (Library.ascii.toLower a = Library.ascii.toLower b)
  trimSpace := fun text => ((text.dropWhile (· = 32)).reverse.dropWhile (· = 32)).reverse
  fields := asciiFields

def Console.truthfulNow (t : Terminal) (c : Console) : Console.Deed → Bool
  | .call q answer => c.world.returnsNow t.lib q answer
  | _ => true

theorem Console.truthful_of_now {t : Terminal} {c : Console} {d : Console.Deed}
    (now : c.truthfulNow t d = true) : Console.Truthful t c d := by
  cases d with
  | call q answer => exact World.returns_of_now now
  | _ => trivial

/-- The server of the run. -/
def arena : Server := .new 0 "arena" "a:1" .rakNet "" 1 false

def World.withArena : World where
  registry := fun name => if name = "arena" then some arena else none
  draining := fun _ => true
  healthy := fun _ => true
  playerCount := fun _ => 0
  store := .newDefault
  serverOf := fun _ => none
  loggingIn := fun _ => false

def asciiBytes (s : String) : List UInt8 := s.toList.map fun ch => .ofNat ch.toNat

/-- Two lines come in three pieces, the second without a newline. -/
def typing : List Console.Deed :=
  [.scan .grow, .scan (.read (asciiBytes " drain are")),
    .scan (.read (asciiBytes "na OFF\r\n\nfl")), .scan .line,
    .call (.server "arena") (some arena), .call (.setDraining arena false) (), .finish,
    .scan .line, .scan (.read (asciiBytes "y")), .scan .fail, .scan .line, .finish, .scan .stop]

theorem console_serves_pieces :
    ∃ c log, ((Console.machine .ascii .withArena).record (Console.entries .ascii)).Reach
        (fun p d => Console.Truthful .ascii p.1 d) (c, log) ∧
      c.scanner.stopped = true ∧
      c.printed = ["arena is no longer draining",
        "unknown command \"fly\", type 'help' for a list of commands"] ∧
      requests log = Console.commands .ascii (Scanner.linesOf newline c.read) := by
  obtain ⟨⟨c, log⟩, executed, stopped, printed, empty⟩ :
      ∃ p, ((Console.machine .ascii .withArena).record (Console.entries .ascii)).exec
          (fun p d => p.1.truthfulNow .ascii d = true) (Console.initial .withArena, []) typing =
            some p ∧
        p.1.scanner.stopped = true ∧ p.1.printed = ["arena is no longer draining",
          "unknown command \"fly\", type 'help' for a list of commands"] ∧
        p.1.scanner.data = [] :=
    ⟨_, rfl, rfl, rfl, rfl⟩
  have reached : ((Console.machine .ascii .withArena).record (Console.entries .ascii)).Reach
      (fun p d => Console.Truthful .ascii p.1 d) (c, log) :=
    Machine.Reach.start.exec (fun _ _ => Console.truthful_of_now) typing executed
  obtain ⟨-, lines, commands, -⟩ := console_serves reached
  exact ⟨c, log, reached, stopped, printed, lines empty ▸ commands⟩

end Portal.Control
