/-
# Control.Command — the commands of an operator

`HandleAdminCommand` and the functions behind it, as programs over `Operation`.  A command is
given by its words.  What an operator reads was so while the command was carried out
(`handleAdminCommand_executed`), and a command does to players and servers what it says and
nothing else (`Hearing.acts`).  The `drain` command is the one of `Socket.Drain`, asked
question by question (`adminDrain_performs`).
-/
import Mathlib.Data.List.Forall2
import Portal.Control.Operation
import Portal.Socket.Drain

namespace Portal.Control

open Portal.Theory Hearing

set_option autoImplicit false

/-- How a command ends. -/
inductive Reply where
  /-- what the operator is shown -/
  | text (s : String)
  /-- a method of a nil server was called -/
  | panicked
  deriving DecidableEq

/-- What a call does to players and servers. -/
def Hearing.act (heard : Query.Heard World Operation Operation.Answer) : Option Operation :=
  match heard.question with
  | .transfer s srv => some (.transfer s srv)
  | .disconnect s message => some (.disconnect s message)
  | .setDraining srv draining => some (.setDraining srv draining)
  | _ => none

/-- What was done, in order. -/
def Hearing.acts (hearing : Hearing) : List Operation := hearing.filterMap Hearing.act

variable (lib : Library) (equalFold : String → String → Bool)

/-! ## The commands -/

/-- The lines of a list of players; `none` is a panic. -/
def playerRows : List StoredSession → Program (Option (List String))
  | [] => pure (some [])
  | s :: rest => do
      ask (.conn s)
      match ← ask (.serverOf s) with
      | none => pure none
      | some srv =>
          let rows ← playerRows rest
          pure (rows.map (("\n  " ++ s.displayName ++ " -> " ++ srv.name) :: ·))

def adminListPlayers : Program Reply := do
  let sessions ← ask .all
  if sessions = [] then pure (.text "No players online.")
  else
    match ← playerRows sessions with
    | none => pure .panicked
    | some rows =>
        pure (.text (toString sessions.length ++ " player(s) online:" ++ String.join rows))

/-- A line of the list of servers. -/
def serverRow (srv : Server) (players : Int) (draining healthy : Bool) : String :=
  "\n  " ++ srv.name ++ " (" ++ srv.address ++ ") group=" ++ lib.quote srv.group ++ " weight=" ++
    toString srv.weight ++ " players=" ++ toString players ++ " draining=" ++ toString draining ++
    " healthy=" ++ toString healthy

def askServerRow (srv : Server) : Program String := do
  let players ← ask (.playerCount srv)
  let draining ← ask (.draining srv)
  let healthy ← ask (.healthy srv)
  pure (serverRow lib srv players draining healthy)

def adminListServers : Program Reply := do
  let servers ← ask .servers
  if servers = [] then pure (.text "No servers registered.")
  else
    let rows ← servers.mapM (askServerRow lib)
    pure (.text (toString servers.length ++ " server(s) registered:" ++ String.join rows))

/-- The reason given to a player who is kicked. -/
def kickReason (words : List String) : String :=
  let reason := " ".intercalate words
  if reason = "" then "Kicked by an operator." else reason

def notOnline (name : String) : Reply := .text ("player " ++ lib.quote name ++ " is not online")

def notRegistered (name : String) : Reply :=
  .text ("server " ++ lib.quote name ++ " is not registered")

def adminKick : List String → Program Reply
  | [] => pure (.text "usage: kick <player> [reason]")
  | name :: rest => do
      match ← ask (.loadFromName name) with
      | none => pure (notOnline lib name)
      | some s =>
          ask (.disconnect s (kickReason rest))
          pure (.text ("kicked " ++ name))

def adminTransfer : List String → Program Reply
  | name :: target :: _ => do
      match ← ask (.loadFromName name) with
      | none => pure (notOnline lib name)
      | some s =>
          match ← ask (.server target) with
          | none => pure (notRegistered lib target)
          | some srv =>
              match ← ask (.transfer s srv) with
              | some err => pure (.text ("failed to transfer " ++ name ++ ": " ++ err))
              | none => pure (.text ("transferring " ++ name ++ " to " ++ target))
  | _ => pure (.text "usage: transfer <player> <server>")

def adminDrain : List String → Program Reply
  | [] => pure (.text "usage: drain <server> [on|off]")
  | name :: rest => do
      match ← ask (.server name) with
      | none => pure (notRegistered lib name)
      | some srv =>
          ask (.setDraining srv (Socket.Drain.wanted equalFold rest))
          pure (.text (Socket.Drain.outcome name (Socket.Drain.wanted equalFold rest)))

/-- The commands, by their first word in lower case. -/
inductive Command where
  | help
  | players
  | servers
  | kick
  | transfer
  | drain
  | unknown (cmd : String)
  deriving DecidableEq

def Command.ofWord (cmd : String) : Command :=
  if cmd = "help" then .help
  else if cmd = "players" then .players
  else if cmd = "servers" then .servers
  else if cmd = "kick" then .kick
  else if cmd = "transfer" then .transfer
  else if cmd = "drain" then .drain
  else .unknown cmd

def helpText : Reply :=
  .text ("Commands: help, players, servers, kick <player> [reason], " ++
    "transfer <player> <server>, drain <server> [on|off]")

def unknownCommand (cmd : String) : Reply :=
  .text ("unknown command " ++ lib.quote cmd ++ ", type 'help' for a list of commands")

def Command.run (args : List String) : Command → Program Reply
  | .help => pure helpText
  | .players => adminListPlayers
  | .servers => adminListServers lib
  | .kick => adminKick lib args
  | .transfer => adminTransfer lib args
  | .drain => adminDrain lib equalFold args
  | .unknown cmd => pure (unknownCommand lib cmd)

/-- `HandleAdminCommand`, from where it has the fields of the line. -/
def handleAdminCommand : List String → Program Reply
  | [] => pure (.text "")
  | word :: args => (Command.ofWord (lib.toLower word)).run lib equalFold args

/-! ## What a command does and shows -/

/-- The players of one moment, each with the server it was on at a moment of its own. -/
def PlayersShown (hearing : Hearing) (reply : Reply) : Prop :=
  hearing.acts = [] ∧
    ∃ sessions, hearing.Saw (fun w => Enumerates w.store.sessions sessions) ∧
      ((sessions = [] ∧ reply = .text "No players online.") ∨
        (reply = .panicked ∧ ∃ s ∈ sessions, hearing.Saw fun w => w.serverOf s = none) ∨
        ∃ rows, reply =
            .text (toString sessions.length ++ " player(s) online:" ++ String.join rows) ∧
          List.Forall₂ (fun s row => ∃ srv, hearing.Saw (fun w => w.serverOf s = some srv) ∧
            row = "\n  " ++ s.displayName ++ " -> " ++ srv.name) sessions rows)

/-- The servers of one moment, each with its count and flags at moments of their own. -/
def ServersShown (hearing : Hearing) (reply : Reply) : Prop :=
  hearing.acts = [] ∧
    ∃ servers, hearing.Saw (fun w => Enumerates w.registry servers) ∧
      ((servers = [] ∧ reply = .text "No servers registered.") ∨
        ∃ rows, reply =
            .text (toString servers.length ++ " server(s) registered:" ++ String.join rows) ∧
          List.Forall₂ (fun srv row => ∃ players draining healthy,
            hearing.Saw (fun w => w.playerCount srv = players) ∧
            hearing.Saw (fun w => w.draining srv = draining) ∧
            hearing.Saw (fun w => w.healthy srv = healthy) ∧
            row = serverRow lib srv players draining healthy) servers rows)

/-- The player of the name was disconnected, if there was one. -/
def Kicked (args : List String) (hearing : Hearing) (reply : Reply) : Prop :=
  match args with
  | [] => hearing.acts = [] ∧ reply = .text "usage: kick <player> [reason]"
  | name :: rest =>
      (hearing.acts = [] ∧ reply = notOnline lib name ∧
        hearing.Saw fun w => w.store.loadFromName lib name = none) ∨
      ∃ s, hearing.Saw (fun w => w.store.loadFromName lib name = some s) ∧
        hearing.acts = [.disconnect s (kickReason rest)] ∧ reply = .text ("kicked " ++ name)

/-- The transfer was started, if there were such a player and such a server. -/
def Transferred (args : List String) (hearing : Hearing) (reply : Reply) : Prop :=
  match args with
  | name :: target :: _ =>
      (hearing.acts = [] ∧ reply = notOnline lib name ∧
        hearing.Saw fun w => w.store.loadFromName lib name = none) ∨
      ∃ s, hearing.Saw (fun w => w.store.loadFromName lib name = some s) ∧
        ((hearing.acts = [] ∧ reply = notRegistered lib target ∧
            hearing.Saw fun w => w.registry.server lib target = none) ∨
          ∃ srv, hearing.Saw (fun w => w.registry.server lib target = some srv) ∧
            hearing.acts = [.transfer s srv] ∧
            ((hearing.transfers = [(s, srv, none)] ∧
                reply = .text ("transferring " ++ name ++ " to " ++ target)) ∨
              ∃ err, hearing.transfers = [(s, srv, some err)] ∧
                reply = .text ("failed to transfer " ++ name ++ ": " ++ err)))
  | _ => hearing.acts = [] ∧ reply = .text "usage: transfer <player> <server>"

/-- The flag was set, if there was such a server. -/
def Drained (args : List String) (hearing : Hearing) (reply : Reply) : Prop :=
  match args with
  | [] => hearing.acts = [] ∧ reply = .text "usage: drain <server> [on|off]"
  | name :: rest =>
      (hearing.acts = [] ∧ reply = notRegistered lib name ∧
        hearing.Saw fun w => w.registry.server lib name = none) ∨
      ∃ srv, hearing.Saw (fun w => w.registry.server lib name = some srv) ∧
        hearing.acts = [.setDraining srv (Socket.Drain.wanted equalFold rest)] ∧
        reply = .text (Socket.Drain.outcome name (Socket.Drain.wanted equalFold rest))

/-- What a command does and shows. -/
def Command.Ran (args : List String) : Command → Hearing → Reply → Prop
  | .help, hearing, reply => hearing.acts = [] ∧ reply = helpText
  | .players, hearing, reply => PlayersShown hearing reply
  | .servers, hearing, reply => ServersShown lib hearing reply
  | .kick, hearing, reply => Kicked lib args hearing reply
  | .transfer, hearing, reply => Transferred lib args hearing reply
  | .drain, hearing, reply => Drained lib equalFold args hearing reply
  | .unknown cmd, hearing, reply => hearing.acts = [] ∧ reply = unknownCommand lib cmd

/-- What a line of these words does and shows. -/
def Executed : List String → Hearing → Reply → Prop
  | [], hearing, reply => hearing.acts = [] ∧ reply = .text ""
  | word :: args, hearing, reply =>
      (Command.ofWord (lib.toLower word)).Ran lib equalFold args hearing reply

variable {lib equalFold}

/-- The rows of the players, or a player without a server. -/
theorem playerRows_true (sessions : List StoredSession) :
    (playerRows sessions).Always (World.Returns lib) fun (hearing : Hearing) rows =>
      hearing.acts = [] ∧
        match rows with
        | none => ∃ s ∈ sessions, hearing.Saw fun w => w.serverOf s = none
        | some rows => List.Forall₂ (fun s row => ∃ srv,
            hearing.Saw (fun w => w.serverOf s = some srv) ∧
            row = "\n  " ++ s.displayName ++ " -> " ++ srv.name) sessions rows := by
  induction sessions with
  | nil => exact ⟨rfl, .nil⟩
  | cons s rest ih =>
      refine Query.always_load fun w₁ _ _ => ?_
      refine Query.always_load fun w₂ current ⟨_, server⟩ => ?_
      cases current with
      | none => exact ⟨rfl, s, List.mem_cons_self .., (saw_here server.symm).later⟩
      | some srv =>
          refine Query.always_map (Query.Always.mono ih ?_)
          rintro hearing rows ⟨acts, told⟩
          refine ⟨acts, ?_⟩
          cases rows with
          | none =>
              obtain ⟨s', member, saw⟩ := told
              exact ⟨s', List.mem_cons_of_mem _ member, saw.later.later⟩
          | some rows =>
              refine .cons ⟨srv, (saw_here server.symm).later, rfl⟩ (told.imp ?_)
              rintro s' row ⟨srv', saw, rfl⟩
              exact ⟨srv', saw.later.later, rfl⟩

theorem adminListPlayers_shown :
    adminListPlayers.Always (World.Returns lib) PlayersShown := by
  refine Query.always_load fun w sessions listed => ?_
  by_cases empty : sessions = []
  · simp only [if_pos empty]
    exact ⟨rfl, sessions, saw_here listed, .inl ⟨empty, rfl⟩⟩
  · simp only [if_neg empty]
    refine Query.always_bind (Query.Always.mono (playerRows_true sessions) ?_)
    rintro hearing rows ⟨acts, told⟩
    cases rows with
    | none =>
        obtain ⟨s, member, saw⟩ := told
        refine ⟨by rw [List.append_nil]; exact acts, sessions, saw_here listed, .inr (.inl ?_)⟩
        rw [List.append_nil]
        exact ⟨rfl, s, member, saw.later⟩
    | some rows =>
        refine ⟨by rw [List.append_nil]; exact acts, sessions, saw_here listed,
          .inr (.inr ⟨rows, rfl, ?_⟩)⟩
        rw [List.append_nil]
        refine told.imp ?_
        rintro s row ⟨srv, saw, rfl⟩
        exact ⟨srv, saw.later, rfl⟩

theorem askServerRow_true (srv : Server) :
    (askServerRow lib srv).Always (World.Returns lib) fun (hearing : Hearing) row =>
      (∀ heard ∈ hearing, act heard = none) ∧ ∃ players draining healthy,
        hearing.Saw (fun w => w.playerCount srv = players) ∧
        hearing.Saw (fun w => w.draining srv = draining) ∧
        hearing.Saw (fun w => w.healthy srv = healthy) ∧
        row = serverRow lib srv players draining healthy := by
  refine Query.always_load fun w₁ players count => ?_
  refine Query.always_load fun w₂ draining drains => ?_
  intro w₃ healthy health
  refine ⟨?_, players, draining, healthy, saw_here count.symm, (saw_here drains.symm).later,
    (saw_here health.symm).later.later, rfl⟩
  simp [act]

theorem serverRows_true (servers : List Server) :
    (servers.mapM (askServerRow lib)).Always (World.Returns lib) fun (hearing : Hearing) rows =>
      hearing.acts = [] ∧ List.Forall₂ (fun srv row => ∃ players draining healthy,
        hearing.Saw (fun w => w.playerCount srv = players) ∧
        hearing.Saw (fun w => w.draining srv = draining) ∧
        hearing.Saw (fun w => w.healthy srv = healthy) ∧
        row = serverRow lib srv players draining healthy) servers rows := by
  refine (Query.always_mapM ?_ askServerRow_true servers).mono ?_
  · rintro hearing hearing' srv row more ⟨players, draining, healthy, saw₁, saw₂, saw₃, rfl⟩
    exact ⟨players, draining, healthy, saw₁.mono more, saw₂.mono more, saw₃.mono more, rfl⟩
  · rintro hearing rows ⟨quiet, told⟩
    exact ⟨List.filterMap_eq_nil_iff.mpr quiet, told⟩

theorem adminListServers_shown :
    (adminListServers lib).Always (World.Returns lib) (ServersShown lib) := by
  refine Query.always_load fun w servers listed => ?_
  by_cases empty : servers = []
  · simp only [if_pos empty]
    exact ⟨rfl, servers, saw_here listed, .inl ⟨empty, rfl⟩⟩
  · simp only [if_neg empty]
    refine Query.always_map (Query.Always.mono (serverRows_true servers) ?_)
    rintro hearing rows ⟨acts, told⟩
    refine ⟨acts, servers, saw_here listed, .inr ⟨rows, rfl, told.imp ?_⟩⟩
    rintro srv row ⟨players, draining, healthy, saw₁, saw₂, saw₃, rfl⟩
    exact ⟨players, draining, healthy, saw₁.later, saw₂.later, saw₃.later, rfl⟩

theorem adminKick_kicked (args : List String) :
    (adminKick lib args).Always (World.Returns lib) (Kicked lib args) := by
  cases args with
  | nil => exact ⟨rfl, rfl⟩
  | cons name rest =>
      refine Query.always_load fun w₁ found player => ?_
      cases found with
      | none => exact .inl ⟨rfl, rfl, saw_here player.symm⟩
      | some s =>
          refine Query.always_load fun w₂ _ _ => ?_
          exact .inr ⟨s, saw_here player.symm, rfl, rfl⟩

theorem adminTransfer_transferred (args : List String) :
    (adminTransfer lib args).Always (World.Returns lib) (Transferred lib args) := by
  match args with
  | [] => exact ⟨rfl, rfl⟩
  | [name] => exact ⟨rfl, rfl⟩
  | name :: target :: rest =>
      refine Query.always_load fun w₁ found player => ?_
      cases found with
      | none => exact .inl ⟨rfl, rfl, saw_here player.symm⟩
      | some s =>
          refine Query.always_load fun w₂ found server => ?_
          cases found with
          | none =>
              exact .inr ⟨s, saw_here player.symm,
                .inl ⟨rfl, rfl, (saw_here server.symm).later⟩⟩
          | some srv =>
              refine Query.always_load fun w₃ outcome _ => ?_
              cases outcome with
              | none =>
                  exact .inr ⟨s, saw_here player.symm, .inr ⟨srv, (saw_here server.symm).later,
                    rfl, .inl ⟨rfl, rfl⟩⟩⟩
              | some err =>
                  exact .inr ⟨s, saw_here player.symm, .inr ⟨srv, (saw_here server.symm).later,
                    rfl, .inr ⟨err, rfl, rfl⟩⟩⟩

theorem adminDrain_drained (args : List String) :
    (adminDrain lib equalFold args).Always (World.Returns lib) (Drained lib equalFold args) := by
  cases args with
  | nil => exact ⟨rfl, rfl⟩
  | cons name rest =>
      refine Query.always_load fun w₁ found server => ?_
      cases found with
      | none => exact .inl ⟨rfl, rfl, saw_here server.symm⟩
      | some srv =>
          refine Query.always_load fun w₂ _ _ => ?_
          exact .inr ⟨srv, saw_here server.symm, rfl, rfl⟩

/-- What an act leaves of the flags. -/
def perform (p : Socket.Proxy) : Operation → Socket.Proxy
  | .setDraining srv draining =>
      { p with draining := Function.update p.draining srv draining }
  | _ => p

/-- While the registry is that of `p`, the program does to `p` and shows what the function
that runs undisturbed does and shows. -/
theorem adminDrain_performs (p : Socket.Proxy) (args : List String) :
    (adminDrain lib equalFold args).Always
      (fun w q answer => w.registry = p.registry ∧ World.Returns lib w q answer)
      fun (hearing : Hearing) reply =>
        hearing.acts.foldl perform p = (Socket.Drain.adminDrain lib equalFold p args).1 ∧
          reply = .text (Socket.Drain.adminDrain lib equalFold p args).2 := by
  cases args with
  | nil => exact ⟨rfl, rfl⟩
  | cons name rest =>
      refine Query.always_load fun w₁ found ⟨same, server⟩ => ?_
      have server : p.registry.server lib name = found := same ▸ server.symm
      cases found with
      | none =>
          simp only [Socket.Drain.adminDrain, server]
          exact ⟨rfl, rfl⟩
      | some srv =>
          refine Query.always_load fun w₂ _ _ => ?_
          simp only [Socket.Drain.adminDrain, server]
          exact ⟨rfl, rfl⟩

theorem Command.run_ran (args : List String) (command : Command) :
    (command.run lib equalFold args).Always (World.Returns lib)
      (command.Ran lib equalFold args) := by
  cases command with
  | help => exact ⟨rfl, rfl⟩
  | players => exact adminListPlayers_shown
  | servers => exact adminListServers_shown
  | kick => exact adminKick_kicked args
  | transfer => exact adminTransfer_transferred args
  | drain => exact adminDrain_drained args
  | unknown cmd => exact ⟨rfl, rfl⟩

/-- **A command does what it says and nothing else, and what it shows was so.** -/
theorem handleAdminCommand_executed (words : List String) :
    (handleAdminCommand lib equalFold words).Always (World.Returns lib)
      (Executed lib equalFold words) := by
  cases words with
  | nil => exact ⟨rfl, rfl⟩
  | cons word args => exact Command.run_ran args _

end Portal.Control
