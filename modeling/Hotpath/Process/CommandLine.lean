import Hotpath.Lib.Utf8
import Hotpath.Executor.Fire

set_option relaxedAutoImplicit false
set_option autoImplicit false

/-!
# The command line

The first part of `run` in `src/main.cpp`: what the arguments ask for.

## Main definitions

* `Hotpath.CommandLine`, `Hotpath.Invocation`.
* `Hotpath.CommandLine.read` — the loop over the arguments.

## Main results

* `Hotpath.CommandLine.read_serve_iff` — the command lines that start a server.
-/

namespace Hotpath

open Utf8 (bytes)

/-- The three paths; an empty one was not given. -/
structure CommandLine where
  socketPath : Bytes
  killSwitchPath : Bytes
  telemetryDbPath : Bytes
  deriving DecidableEq, Repr

/-- What a command line asks for: the version, with exit code 0, the usage, with exit code 2, or a
server. -/
inductive Invocation where
  | version
  | usage
  | serve (line : CommandLine)
  deriving DecidableEq, Repr

/-- A flag that takes a path. -/
inductive PathFlag where
  | socket
  | killSwitch
  | telemetryDb
  deriving DecidableEq, Repr

/-- The flag as it is written. -/
def PathFlag.text : PathFlag → Bytes
  | .socket => bytes "--socket"
  | .killSwitch => bytes "--kill-switch"
  | .telemetryDb => bytes "--telemetry-db"

namespace CommandLine

/-- The command line before the first argument. -/
def empty : CommandLine := ⟨[], [], []⟩

/-- The path of a flag is stored. -/
def set (line : CommandLine) : PathFlag → Bytes → CommandLine
  | .socket, path => { line with socketPath := path }
  | .killSwitch, path => { line with killSwitchPath := path }
  | .telemetryDb, path => { line with telemetryDbPath := path }

/-- The loop over the arguments that are left, and the check after it. A flag that takes a path is
one only if another argument follows. -/
def read (line : CommandLine) : List Bytes → Invocation
  | [] => if line.socketPath = [] then .usage else .serve line
  | [flag] => if flag = bytes "--version" then .version else .usage
  | flag :: value :: args =>
    if flag = bytes "--socket" then read { line with socketPath := value } args
    else if flag = bytes "--kill-switch" then read { line with killSwitchPath := value } args
    else if flag = bytes "--telemetry-db" then read { line with telemetryDbPath := value } args
    else if flag = bytes "--version" then .version
    else .usage

/-! ## What is accepted -/

/-- The arguments that give some flags their paths. -/
def arguments (paths : List (PathFlag × Bytes)) : List Bytes :=
  paths.flatMap fun p => [p.1.text, p.2]

/-- Some paths are stored, one after the other, so that of two for one flag the later counts. -/
def setAll (line : CommandLine) (paths : List (PathFlag × Bytes)) : CommandLine :=
  paths.foldl (fun line p => line.set p.1 p.2) line

/-- A flag with its path is read. -/
lemma read_text (line : CommandLine) (flag : PathFlag) (path : Bytes) (args : List Bytes) :
    line.read (flag.text :: path :: args) = (line.set flag path).read args := by
  have hswitch : bytes "--kill-switch" ≠ bytes "--socket" := by decide
  have hdb : bytes "--telemetry-db" ≠ bytes "--socket" := by decide
  have hdb' : bytes "--telemetry-db" ≠ bytes "--kill-switch" := by decide
  cases flag with
  | socket => rw [PathFlag.text, read, if_pos rfl, set]
  | killSwitch => rw [PathFlag.text, read, if_neg hswitch, if_pos rfl, set]
  | telemetryDb => rw [PathFlag.text, read, if_neg hdb, if_neg hdb', if_pos rfl, set]

/-- Flags with their paths are all read. -/
lemma read_arguments (line : CommandLine) (paths : List (PathFlag × Bytes)) (args : List Bytes) :
    line.read (arguments paths ++ args) = (line.setAll paths).read args := by
  induction paths generalizing line with
  | nil => rfl
  | cons p paths ih => exact (line.read_text p.1 p.2 _).trans (ih _)

/-- `--version` ends the loop, whatever follows it. -/
lemma read_version (line : CommandLine) (args : List Bytes) :
    line.read (bytes "--version" :: args) = .version := by
  have hsocket : bytes "--version" ≠ bytes "--socket" := by decide
  have hswitch : bytes "--version" ≠ bytes "--kill-switch" := by decide
  have hdb : bytes "--version" ≠ bytes "--telemetry-db" := by decide
  cases args with
  | nil => rw [read, if_pos rfl]
  | cons value args => rw [read, if_neg hsocket, if_neg hswitch, if_neg hdb, if_pos rfl]

/-- **The loop reads flags with their paths**, and then it is at the end, at `--version`, or at an
argument that is none of the flags or lacks its path. -/
lemma read_cases (line : CommandLine) (args : List Bytes) : ∃ paths rest,
    args = arguments paths ++ rest ∧
      (rest = [] ∨ (∃ args', rest = bytes "--version" :: args') ∨
        rest ≠ [] ∧ (line.setAll paths).read rest = .usage) := by
  induction line, args using read.induct with
  | case1 line hline | case2 line hline => exact ⟨[], [], rfl, .inl rfl⟩
  | case3 line => exact ⟨[], _, rfl, .inr (.inl ⟨[], rfl⟩)⟩
  | case4 line flag hflag => exact ⟨[], _, rfl, .inr (.inr ⟨by simp, by simp [read, hflag]⟩)⟩
  | case5 line value args ih =>
    obtain ⟨paths, rest, rfl, h⟩ := ih
    exact ⟨(.socket, value) :: paths, rest, rfl, h⟩
  | case6 line value args _ ih =>
    obtain ⟨paths, rest, rfl, h⟩ := ih
    exact ⟨(.killSwitch, value) :: paths, rest, rfl, h⟩
  | case7 line value args _ _ ih =>
    obtain ⟨paths, rest, rfl, h⟩ := ih
    exact ⟨(.telemetryDb, value) :: paths, rest, rfl, h⟩
  | case8 line value args _ _ _ => exact ⟨[], _, rfl, .inr (.inl ⟨value :: args, rfl⟩)⟩
  | case9 line flag value args h₁ h₂ h₃ h₄ =>
    exact ⟨[], _, rfl, .inr (.inr ⟨by simp, by simp [read, h₁, h₂, h₃, h₄]⟩)⟩

/-- At the end of the arguments a server is started if there is a path for its socket. -/
lemma read_end (line : CommandLine) (paths : List (PathFlag × Bytes)) :
    line.read (arguments paths) =
      if (line.setAll paths).socketPath = [] then .usage else .serve (line.setAll paths) := by
  have h := line.read_arguments paths []
  rwa [List.append_nil, read] at h

/-- **The command lines that are accepted.** A server is started exactly on those that give some
flags a path each, the last path of a flag being the one that counts, and that of the socket is not
empty; the version is printed exactly on those that have `--version` after such flags, whatever
follows; every other one is answered with the usage. -/
theorem read_serve_iff (args : List Bytes) :
    (∀ line, empty.read args = .serve line ↔ line.socketPath ≠ [] ∧
      ∃ paths, args = arguments paths ∧ line = empty.setAll paths) ∧
    (empty.read args = .version ↔
      ∃ paths rest, args = arguments paths ++ bytes "--version" :: rest) := by
  have hserve : ∀ paths line, empty.read (arguments paths) = .serve line ↔
      line.socketPath ≠ [] ∧ line = empty.setAll paths := by
    intro paths line
    rw [read_end]
    split_ifs with h
    · refine ⟨by simp, ?_⟩
      rintro ⟨hne, rfl⟩
      exact absurd h hne
    · constructor
      · rintro ⟨⟩
        exact ⟨h, rfl⟩
      · rintro ⟨-, rfl⟩
        rfl
  have hversion : ∀ paths rest,
      empty.read (arguments paths ++ bytes "--version" :: rest) = .version := by
    intro paths rest
    rw [read_arguments, read_version]
  refine ⟨fun line => ⟨fun h => ?_, ?_⟩, fun h => ?_, ?_⟩
  · obtain ⟨paths, rest, rfl, rfl | ⟨args', rfl⟩ | ⟨-, husage⟩⟩ := empty.read_cases args
    · rw [List.append_nil] at h ⊢
      obtain ⟨hne, hline⟩ := (hserve paths line).mp h
      exact ⟨hne, paths, rfl, hline⟩
    · simp [hversion] at h
    · simp [read_arguments, husage] at h
  · rintro ⟨hne, paths, rfl, hline⟩
    exact (hserve paths line).mpr ⟨hne, hline⟩
  · obtain ⟨paths, rest, rfl, rfl | ⟨args', rfl⟩ | ⟨-, husage⟩⟩ := empty.read_cases args
    · rw [List.append_nil, read_end] at h
      split_ifs at h
    · exact ⟨paths, args', rfl⟩
    · simp [read_arguments, husage] at h
  · rintro ⟨paths, rest, rfl⟩
    exact hversion paths rest

end CommandLine

end Hotpath
