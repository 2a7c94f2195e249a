import Chatroom.Lib.Path
import Chatroom.Codec.Framing
import Chatroom.Database.Commands
import Chatroom.Service.Footprint

/-!
# Where a file name leads

The server opens `./received_files/` with the file name of a message behind it, to write in the codec and to read in
`handleReceiveFile`; the client codec opens `./` with the file name behind it. Only the client that sends a file cuts
its directories off. `opened_inside_iff` says which names stay where they belong.
-/

namespace Chatroom.Service

open Lib
open Codec (JsonCodec ServerJsonCodec ClientJsonCodec Env Frame Effect)
open Database (cStr)

/-- A name in a directory. -/
abbrev Name := List Char

def component (text : List Char) : Component Name :=
  if text = [] ∨ text = ".".toList then .stay else if text = "..".toList then .up else .name text

def components (path : List Char) : List (Component Name) := (path.splitOn '/').map component

/-- What a relative path that is passed to `open` or to an `ofstream` leads to from the working directory. -/
def resolvePath (cwd : List Name) (path : String) : List Name := Path.resolve cwd (components (cStr path).toList)

/-- A file directly inside the directory. -/
def Inside (dir file : List Name) : Prop := ∃ name, file = dir ++ [name]

/-- The file name goes down to one name; or it goes up `n` times and down again along the last `n` names of the
directory to one more. -/
def NamesFile (dir : List Name) (filename : String) : Prop :=
  let path := Path.normal (components (cStr filename).toList)
  ∃ name, path.2 = dir.drop (dir.length - path.1) ++ [name]

example : NamesFile ["srv".toList, "received_files".toList] "a/../../received_files/b" :=
  ⟨"b".toList, by decide⟩

theorem components_append (dir path : List Char) :
    components (dir ++ '/' :: path) = components dir ++ components path := by
  rw [components, List.splitOn_append_cons_self, List.map_append]
  rfl

theorem inside_iff {cwd dir : List Name} {prepended : String} {text : List Char}
    (htext : prepended.toList = text ++ ['/']) (hnul : '\x00' ∉ text)
    (hdir : Path.resolve cwd (components text) = dir) (filename : String) :
    Inside dir (resolvePath cwd (prepended ++ filename)) ↔ NamesFile dir filename := by
  have hpath : (cStr (prepended ++ filename)).toList = text ++ '/' :: (cStr filename).toList := by
    have hall : ∀ c ∈ text ++ ['/'], decide (c ≠ '\x00') = true := by
      intro c hc
      rw [decide_eq_true_eq]
      rintro rfl
      simp [hnul] at hc
    rw [cStr, cStr, String.toList_ofList, String.toList_ofList, String.toList_append, htext,
      List.takeWhile_append_of_pos hall, List.append_assoc, List.singleton_append]
  rw [resolvePath, hpath, components_append, Path.resolve_append, hdir]
  exact exists_congr fun name => Path.resolve_eq_concat_iff dir _ name

theorem inside_receivedFiles_iff (cwd : List Name) (filename : String) :
    Inside (cwd ++ ["received_files".toList]) (resolvePath cwd ("./received_files/" ++ filename)) ↔
      NamesFile (cwd ++ ["received_files".toList]) filename := by
  have hpath : components "./received_files".toList = [.stay, .name "received_files".toList] := by decide +kernel
  refine @inside_iff _ _ _ "./received_files".toList (by decide) (by decide) ?_ filename
  rw [hpath]
  rfl

theorem inside_workingDirectory_iff (cwd : List Name) (filename : String) :
    Inside cwd (resolvePath cwd ("./" ++ filename)) ↔ NamesFile cwd filename := by
  have hpath : components ".".toList = [.stay] := by decide
  refine @inside_iff _ _ _ ".".toList (by decide) (by decide) ?_ filename
  rw [hpath]
  rfl

/-! ## The three places -/

section Codec

variable {codec : JsonCodec} {env : Env} {l : Bytes} {filename : String} {fileSize : ℕ}

/-- What the codec opens for the line that announces a file. -/
theorem opened_handleLine (h : codec.readFrame env l = .ok (.header filename fileSize)) (c : Codec.Conn)
    (path : String) : .opened path ∈ (codec.handleLine env l c).2.log.drop c.log.length ↔
      env.opens c.log (codec.dir ++ filename) = true ∧ path = codec.dir ++ filename := by
  simp only [JsonCodec.handleLine, h]
  cases hopens : env.opens c.log (codec.dir ++ filename) with
  | false => simp
  | true => cases hkeeps : codec.keepsAlive <;> simp

variable (codec) in
/-- The codec opens nothing but files directly inside the directory for a line that announces the file name. -/
def CodecStays (cwd dir : List Name) (filename : String) : Prop :=
  ∀ (env : Env) (l : Bytes) (fileSize : ℕ), codec.readFrame env l = .ok (.header filename fileSize) →
    ∀ (c : Codec.Conn) (path : String), .opened path ∈ (codec.handleLine env l c).2.log.drop c.log.length →
      Inside dir (resolvePath cwd path)

theorem codecStays_iff {cwd dir : List Name} :
    CodecStays codec cwd dir filename ↔ Inside dir (resolvePath cwd (codec.dir ++ filename)) := by
  constructor
  · intro h
    obtain ⟨hmsgid, hname, hsize⟩ := JsonCodec.fields_metadata codec.fileHeader ⟨filename, [], by decide⟩
    have hframe := codec.readFrame_header
      ⟨⟨Json.dump, fun _ => .ok (Codec.metadata codec.fileHeader filename 0)⟩, fun _ _ => true⟩ (l := []) rfl
      hmsgid hname hsize
    exact h _ _ _ hframe .new _ ((opened_handleLine hframe .new _).2 ⟨rfl, rfl⟩)
  · intro h env l fileSize hframe c path hpath
    obtain ⟨-, rfl⟩ := (opened_handleLine hframe c path).1 hpath
    exact h

end Codec

/-- `handleReceiveFile` opens nothing but files directly inside the directory for a message with the file name. -/
def HandlerStays (cwd dir : List Name) (filename : String) : Prop :=
  ∀ (conn : Conn) (js : Json) (time : String), js.stringField "filename" = .ok filename →
    (handleReceiveFile conn js time).Safe (fun c => ∀ path, c = .openFile path → Inside dir (resolvePath cwd path))
      (fun _ _ => True) fun _ => True

theorem handlerStays_iff {cwd dir : List Name} {filename : String} :
    HandlerStays cwd dir filename ↔ Inside dir (resolvePath cwd ("./received_files/" ++ filename)) := by
  constructor
  · intro h
    have hsafe := h 0 (.obj [("filename", .str filename)]) "" rfl
    exact hsafe.1 _ rfl
  · intro h conn js time hname
    simp only [handleReceiveFile, Program.safe_bind, safe_read, hname]
    rintro _ ⟨⟩
    refine ⟨?_, fun opened _ => ?_⟩
    · rintro path ⟨⟩
      exact h
    rw [Program.safe_ret, Program.safe_ite]
    refine ⟨fun _ => by simp [sendMsg, send], fun _ => ?_⟩
    rw [Program.safe_bind, Program.safe_perform]
    refine ⟨by simp, fun size _ => ?_⟩
    cases size with
    | none => simp
    | some fileSize => simp +contextual [connUser, sendMsg, send]

/-- **Which file names stay in their directory**, in the codec and the handler of the server, and in the codec of the
client. -/
theorem opened_inside_iff (cwd : List Name) (filename : String) :
    let received := cwd ++ ["received_files".toList]
    (CodecStays ServerJsonCodec cwd received filename ↔ NamesFile received filename) ∧
    (HandlerStays cwd received filename ↔ NamesFile received filename) ∧
    (CodecStays ClientJsonCodec cwd cwd filename ↔ NamesFile cwd filename) := by
  refine ⟨?_, ?_, ?_⟩
  · rw [codecStays_iff]
    exact inside_receivedFiles_iff cwd filename
  · rw [handlerStays_iff]
    exact inside_receivedFiles_iff cwd filename
  · rw [codecStays_iff]
    exact inside_workingDirectory_iff cwd filename

/-- A file of the working directory, next to `received_files`. -/
theorem parent_leaves :
    ¬ CodecStays ServerJsonCodec ["srv".toList] ["srv".toList, "received_files".toList] "../server" ∧
      ¬ HandlerStays ["srv".toList] ["srv".toList, "received_files".toList] "../server" := by
  have hresolve : resolvePath ["srv".toList] "./received_files/../server" = ["srv".toList, "server".toList] := by
    decide +kernel
  have hleaves : ¬ Inside ["srv".toList, "received_files".toList]
      (resolvePath ["srv".toList] ("./received_files/" ++ "../server")) := by
    rintro ⟨name, h⟩
    cases (hresolve.symm.trans h)
  rw [codecStays_iff, handlerStays_iff]
  exact ⟨hleaves, hleaves⟩

end Chatroom.Service
