import SwiftChat.Base.Segments
import SwiftChat.Logger.AsyncLogger
import SwiftChat.Logger.FileSink

/-! The file sink at work: its stream, its rotation, and the directory it writes to. -/
namespace SwiftChat.Logger
open Base

/-- The regular files of the log directory. -/
structure Directory where
  files : OrderedMap Bytes Bytes
  short : ∀ name, (files.get name).isSome → name.length ≤ 255

namespace Directory
variable {d : Directory} {name other content text : Bytes} {sink : FileSink}

theorem isSome_of_mem_names (h : name ∈ d.files.entries.map Prod.fst) :
    (d.files.get name).isSome := by
  obtain ⟨e, he, rfl⟩ := List.mem_map.mp h
  exact Option.isSome_of_eq_some (OrderedMap.mem_entries.mp he)

def listing (d : Directory) : Listing where
  names := d.files.entries.map Prod.fst
  nodup := List.pairwise_map.mpr (d.files.sorted.imp ne_of_lt)
  short := fun name h => d.short name (isSome_of_mem_names h)

def put (d : Directory) (name content : Bytes) (h : name.length ≤ 255) : Directory where
  files := d.files.put name content
  short := by
    intro other hother
    rw [OrderedMap.get_put] at hother
    split at hother
    · rename_i hname
      exact hname ▸ h
    · exact d.short other hother

def delete (d : Directory) (names : List Bytes) : Directory where
  files := d.files.write (names.map .delete)
  short := by
    intro other hother
    rw [OrderedMap.get_write_deletes] at hother
    split at hother
    · cases hother
    · exact d.short other hother

/-- `std::remove`, one path after the other. -/
def remove (d : Directory) (sink : FileSink) (paths : List Bytes) : Directory :=
  d.delete (d.listing.names.filter (fun name => sink.path name ∈ paths))

/-- A stream opened with `std::ios::app` writes at the end of its file. What is written to a file
that is no longer in the directory is not seen there. -/
def append (d : Directory) (name text : Bytes) : Directory :=
  match h : d.files.get name with
  | none => d
  | some content => d.put name (content ++ text) (d.short name (Option.isSome_of_eq_some h))

theorem files_append (h : (d.files.get name).isSome) :
    (d.append name text).files = d.files.put name ((d.files.get name).getD [] ++ text) := by
  unfold append
  split
  · rename_i hnone
    rw [hnone] at h
    cases h
  · rename_i content hsome
    simp [put, hsome]

end Directory

/-- An open `std::ofstream`. `buffered` is what its buffer holds. -/
structure LogStream where
  name : Bytes
  buffered : Bytes := []

/-- The class `FileSink` with its stream, and the directory. -/
structure FileSinkState where
  config : FileSink
  maxFileSize : Nat
  directory : Directory
  file : Option LogStream := none
  currentFileSize : Nat := 0

/-- An attempt to open a file: the time in its name, and whether the system lets it be opened. -/
structure Opening where
  now : LocalTime
  opens : Bool := true

/-- What a call finds outside: its first attempt, whether the directory can be listed, and the
attempt after a rotation. -/
structure Surroundings where
  first : Opening
  listable : Bool := true
  second : Opening

namespace FileSinkState

def openNewFile (s : FileSinkState) (o : Opening) : FileSinkState × Bool :=
  let name := s.config.fileName o.now
  if h : o.opens = true ∧ name.length ≤ 255 then
    let content := (s.directory.files.get name).getD []
    ({ s with
      directory := s.directory.put name content h.2
      file := some { name := name }
      currentFileSize := content.length % 2 ^ 64 }, true)
  else (s, false)

/-- The constructor. -/
def create (config : FileSink) (maxFileSize : Nat) (directory : Directory) (o : Opening) :
    FileSinkState :=
  (openNewFile { config := config, maxFileSize := maxFileSize, directory := directory } o).1

def flush (s : FileSinkState) : FileSinkState :=
  match s.file with
  | none => s
  | some file =>
    { s with
      directory := s.directory.append file.name file.buffered
      file := some { file with buffered := [] } }

def close (s : FileSinkState) : FileSinkState := { s.flush with file := none }

def cleanupOldFiles (s : FileSinkState) (listable : Bool) : Option FileSinkState :=
  let listing := if listable then s.directory.listing else ⟨[], List.nodup_nil, by rintro _ ⟨⟩⟩
  (s.config.cleanupOldFiles listing).map
    (fun removed => { s with directory := s.directory.remove s.config removed })

def rotateFile (s : FileSinkState) (e : Surroundings) : Option FileSinkState :=
  (s.close.cleanupOldFiles e.listable).map (fun s => (s.openNewFile e.second).1)

def checkRotate (s : FileSinkState) (e : Surroundings) : Option FileSinkState :=
  if s.maxFileSize ≤ s.currentFileSize then s.rotateFile e else some s

/-- `Write` and `WriteBatch` first open a file if none is open. -/
def ensureOpen (s : FileSinkState) (o : Opening) : FileSinkState :=
  if s.file.isNone then (s.openNewFile o).1 else s

/-- `file_ << log`, and its size is added. -/
def put (s : FileSinkState) (log : Bytes) : FileSinkState :=
  { s with
    file := s.file.map (fun file => { file with buffered := file.buffered ++ log })
    currentFileSize := (s.currentFileSize + log.length) % 2 ^ 64 }

def write (s : FileSinkState) (e : Surroundings) (log : Bytes) : Option FileSinkState :=
  let s := s.ensureOpen e.first
  if s.file.isNone then some s else (s.put log).checkRotate e

def writeBatch (s : FileSinkState) (e : Surroundings) (logs : List Bytes) : Option FileSinkState :=
  let s := s.ensureOpen e.first
  if s.file.isNone then some s else (logs.foldl put s).checkRotate e

/-- The stream passes on the first bytes of its buffer, which it may do at any time. -/
def spill (s : FileSinkState) (n : Nat) : FileSinkState :=
  match s.file with
  | none => s
  | some file =>
    { s with
      directory := s.directory.append file.name (file.buffered.take n)
      file := some { file with buffered := file.buffered.drop n } }

/-- Another program writes or removes a file, under a name that is none of the sink's. -/
def foreign (s : FileSinkState) (name : Bytes) (content : Option Bytes) : FileSinkState :=
  if h : ¬ s.config.Own name ∧ name.length ≤ 255 then
    match content with
    | none => { s with directory := s.directory.delete [name] }
    | some content => { s with directory := s.directory.put name content h.2 }
  else s

end FileSinkState

/-- What happens to the sink and its directory. -/
inductive FileAct where
  | write (e : Surroundings) (log : Bytes)
  | writeBatch (e : Surroundings) (logs : List Bytes)
  | flush
  | close
  | spill (n : Nat)
  | foreign (name : Bytes) (content : Option Bytes)

/-- The times that the call reads, in this order. -/
def FileAct.times : FileAct → List LocalTime
  | .write e _ => [e.first.now, e.second.now]
  | .writeBatch e _ => [e.first.now, e.second.now]
  | .flush => []
  | .close => []
  | .spill _ => []
  | .foreign _ _ => []

/-- The sink with the text that it has put into a stream. -/
structure FileRun where
  sink : FileSinkState
  accepted : Bytes := []

namespace FileRun

def accept (r : FileRun) (e : Surroundings) (text : Bytes) : Bytes :=
  if (r.sink.ensureOpen e.first).file.isNone then r.accepted else r.accepted ++ text

/-- `none` stands for undefined behaviour. -/
def step (r : FileRun) : FileAct → Option FileRun
  | .write e log => (r.sink.write e log).map (fun s => ⟨s, r.accept e log⟩)
  | .writeBatch e logs => (r.sink.writeBatch e logs).map (fun s => ⟨s, r.accept e logs.flatten⟩)
  | .flush => some { r with sink := r.sink.flush }
  | .close => some { r with sink := r.sink.close }
  | .spill n => some { r with sink := r.sink.spill n }
  | .foreign name content => some { r with sink := r.sink.foreign name content }

def steps (r : FileRun) (acts : List FileAct) : Option FileRun := acts.foldlM step r

end FileRun
end SwiftChat.Logger
