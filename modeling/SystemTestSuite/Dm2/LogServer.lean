import SystemTestSuite.Library.Paths
import SystemTestSuite.Library.ScanfReads
import SystemTestSuite.Library.Gather
import SystemTestSuite.Library.Yields
import Mathlib.Data.List.DropRight

/-!
The log server of `dm2_Network.c`: a request names a path under `dirroot`, a file is sent back and a
directory is listed.
-/

namespace SystemTestSuite.Dm2

open Library

def maxbuf : ℕ := 1024
def maxpath : ℕ := 150

structure Server where
  host : Bytes
  port : Bytes
  dirroot : Bytes

inductive FileKind
  | reg | dir | lnk | chr | blk | fifo | sock | unknown
  deriving DecidableEq, Repr

structure Info where
  kind : FileKind
  size : ℤ
  ctime : Bytes

/-- What the system calls find, by path; an error is its `errno`. Paths and names have no NUL. -/
structure Disk where
  stat : Bytes → Except ℤ Info
  openFile : Bytes → Option Bytes
  opendir : Bytes → Except ℤ (List Bytes)
  strerror : ℤ → Bytes

structure Response where
  page : Bytes
  opened : List Bytes

def pageHead (das title name : Bytes) : Bytes :=
  ascii "HTTP/1.1 200 OK\r\nServer: " ++ das ++
    ascii "\r\nConnection: close\r\n\r\n<html><head><title>" ++ title ++
    ascii "</title></head><body><font size=+4>" ++ name ++
    ascii "</font><br><hr width=\"100%\"><br><center><table border cols=3 width=\"100%\">"

def redText (text : Bytes) : Bytes :=
  ascii "</table><font color=\"CC0000\" size=+2>" ++ text ++ ascii "</font></body></html>"

def errorPage (path : Bytes) (errno : ℤ) (strerror : Bytes) : Bytes :=
  pageHead (ascii "DAS ") (printInt errno ++ ascii " - " ++ strerror) (ascii "TestServer") ++
    redText (ascii "Error" ++ [239, 188, 154] ++ ascii "\n" ++ path ++ ascii " " ++ strerror)

def fileHead (len : ℤ) : Bytes :=
  ascii "HTTP/1.1 200 OK\r\nServer: DAS\r\nConnection: keep-alive\r\nContent-type: application/*\r\n" ++
    ascii "Content-Length:" ++ printInt len ++ ascii "\r\n\r\n"

def folderHead (path : Bytes) : Bytes :=
  pageHead (ascii "DAS by ZhouLifa") path (ascii "Test Server") ++
    ascii "<caption><font size=+3>Folder " ++ path ++ ascii "</font></caption>\n" ++
    ascii "<tr><td>Name</td><td>Size</td><td>Time</td></tr>\n"

def blockedPage (path : Bytes) : Bytes :=
  pageHead (ascii "DAS") (ascii "permission denied") (ascii "Test Server") ++
    redText (ascii "Resources'" ++ path ++ ascii "'blocked" ++ [239, 188, 140] ++
      ascii "Ask administrator" ++ [239, 188, 129])

def cell (text : Bytes) : Bytes := ascii "<td>" ++ text ++ ascii "</td>"

def kindText (info : Info) : Bytes :=
  match info.kind with
  | .dir => ascii "Folder"
  | .reg => printInt info.size
  | .lnk => ascii "Link"
  | .chr => ascii "Character"
  | .blk => ascii "Block"
  | .fifo => ascii "FIFO"
  | .sock => ascii "Socket"
  | .unknown => ascii "(Unknow)"

def link (server : Server) (target text : Bytes) : Bytes :=
  let nport := if atoi server.port = 80 then [] else ascii ":" ++ server.port
  cell (ascii "<a href=\"http://" ++ server.host ++ nport ++ target ++ ascii "\">" ++ text ++ ascii "</a>")

def upLen (path : Bytes) : ℕ → ℕ
  | 0 => 0
  | 1 => 1
  | len + 2 => if path[len + 1]? = some 47 then len + 2 else upLen path (len + 1)

/-- `none` is a copy past `Path[MAXPATH]`. -/
def dirUp (dirpath : Bytes) : Option Bytes :=
  let len := dirpath.length
  let len := if 1 < len ∧ dirpath[len - 1]? = some 47 then len - 1 else len
  if dirpath.length < maxpath then some (dirpath.take (upLen dirpath len)) else none

def filename (path name : Bytes) : Bytes := if path = [47] then 47 :: name else path ++ 47 :: name

/-- The row of a directory entry; `none` is a write past `Filename[MAXPATH]`, or past `Path[MAXPATH]`. -/
def listRow (server : Server) (disk : Disk) (path name : Bytes) : Option Bytes :=
  if (filename path name).length < maxpath then
    match disk.stat (server.dirroot ++ 47 :: filename path name) with
    | .error _ => some (ascii "<tr></tr>\n")
    | .ok info => do
      let href ← if name = ascii ".." then (dirUp path).map (link server · (ascii "(parent)"))
        else some (link server (filename path name) name)
      return ascii "<tr>" ++ href ++ cell (kindText info) ++ cell info.ctime ++ ascii "</tr>\n"
  else none

def listFolder (server : Server) (disk : Disk) (path : Bytes) (names : List Bytes) : Option Response :=
  (names.mapM (listRow server disk path)).map fun rows =>
    ⟨folderHead path ++ rows.flatten ++ ascii "</table></center></body></html>", [server.dirroot ++ 47 :: path]⟩

def giveResponse (server : Server) (disk : Disk) (path : Bytes) : Option Response :=
  let realPath := server.dirroot ++ 47 :: path
  match disk.stat realPath with
  | .error errno => some ⟨errorPage path errno (disk.strerror errno), []⟩
  | .ok info =>
    match info.kind with
    | .reg =>
      match disk.openFile realPath with
      | some p => some ⟨fileHead p.length ++ p, [realPath]⟩
      -- The length is -1 now; what `fwrite` then reads behind `p` is not in the page.
      | none => some ⟨fileHead (-1), []⟩
    | .dir =>
      match disk.opendir realPath with
      | .error errno => some ⟨folderHead path ++ redText (disk.strerror errno), []⟩
      | .ok names => listFolder server disk path names
    | _ => some ⟨blockedPage path, []⟩

def scanReq (buffer : Bytes) : Bytes :=
  let format := ordinary "GET " ++ [.space, .set none true fun b => !isSpace b] ++ ordinary " HTTP"
  match (sscanf buffer format).2.head? with
  | some (.text req) => req
  | _ => []

/-- What is done for a client that has sent `sent`; `none` is a write past the end of an array. -/
def excuteRequest (server : Server) (disk : Disk) (sent : Bytes) : Option Response :=
  let buffer := sent.take maxbuf
  if 0 < buffer.length then
    let req := scanReq buffer
    if req.length ≤ maxpath then giveResponse server disk req else none
  else some ⟨[], []⟩

/-- Every write stays inside its array, and every path that is opened leads, from the working directory
`cwd`, to `dirroot` or below. -/
def Confined (server : Server) (disk : Disk) (cwd : List Bytes) (sent : Bytes) : Prop :=
  ∃ r, excuteRequest server disk sent = some r ∧
    ∀ p ∈ r.opened, resolvePath cwd (server.dirroot ++ [47]) <+: resolvePath cwd p

def requestPath (request : Bytes) : Bytes :=
  let line := cstr request
  if ascii "GET" <+: line then ((line.drop 3).dropWhile isSpace).takeWhile (fun b => !isSpace b) else []

def Disk.opens (disk : Disk) (path : Bytes) : Option (List Bytes) :=
  match disk.stat path with
  | .error _ => none
  | .ok info =>
    match info.kind with
    | .reg => (disk.openFile path).map fun _ => []
    | .dir => (disk.opendir path).toOption
    | _ => none

/-- The path fits in `Req`; where something opens at it, every way up in it leads back, and the names
found there fit behind it in `Filename`. -/
def PathHarmless (server : Server) (disk : Disk) (cwd : List Bytes) (path : Bytes) : Prop :=
  path.length ≤ maxpath ∧
    ∀ names ∈ disk.opens (server.dirroot ++ 47 :: path),
      LeadsBack (resolvePath cwd (server.dirroot ++ [47])) (components path) ∧
        ∀ name ∈ names, (filename path name).length < maxpath

def Harmless (server : Server) (disk : Disk) (cwd : List Bytes) (sent : Bytes) : Prop :=
  sent = [] ∨ PathHarmless server disk cwd (requestPath (sent.take maxbuf))

theorem scanReq_eq (buffer : Bytes) : scanReq buffer = requestPath buffer := by
  have hformat : ordinary "GET " ++ [.space, .set none true fun b => !isSpace b] ++ ordinary " HTTP" =
      (ascii "GET").map .lit ++ [.space, .space, .set none true fun b => !isSpace b] ++
        ordinary " HTTP" := rfl
  rw [scanReq, requestPath, sscanf, hformat, List.append_assoc, scanned_lits]
  by_cases hget : ascii "GET" <+: cstr buffer
  · rw [if_pos hget, if_pos hget]
    have htwice : (((cstr buffer).drop (ascii "GET").length).dropWhile isSpace).dropWhile isSpace =
        ((cstr buffer).drop 3).dropWhile isSpace := List.dropWhile_idempotent _ _
    change (match (sscanfLoop (.set none true _ :: _) _ _ _ _).2.head? with
      | some (.text req) => req
      | _ => []) = _
    rw [scanned_text, htwice]
    generalize (((cstr buffer).drop 3).dropWhile isSpace).takeWhile _ = req
    cases req <;> rfl
  · rw [if_neg hget, if_neg hget]
    rfl

theorem filename_length (path name : Bytes) : path.length ≤ (filename path name).length := by
  by_cases hroot : path = [47]
  · rw [filename, if_pos hroot, hroot]
    exact Nat.succ_le_succ (Nat.zero_le _)
  · rw [filename, if_neg hroot, List.length_append]
    exact Nat.le_add_right _ _

theorem dirUp_some (h : path.length < maxpath) : ∃ up, dirUp path = some up := ⟨_, if_pos h⟩

theorem listRow_yields (server : Server) (disk : Disk) (path name : Bytes) :
    Yields (listRow server disk path name) ((filename path name).length < maxpath) fun _ => True := by
  constructor
  · intro hfits
    obtain ⟨up, hup⟩ := dirUp_some (Nat.lt_of_le_of_lt (filename_length path name) hfits)
    rw [listRow, if_pos hfits]
    cases disk.stat (server.dirroot ++ 47 :: filename path name) with
    | error errno => exact ⟨_, rfl, trivial⟩
    | ok info =>
      by_cases hparent : name = ascii ".."
      · simp only [if_pos hparent, hup]
        exact ⟨_, rfl, trivial⟩
      · simp only [if_neg hparent]
        exact ⟨_, rfl, trivial⟩
  · intro hlong
    exact if_neg hlong

theorem rows_yields (server : Server) (disk : Disk) (path : Bytes) (names : List Bytes) :
    Yields (names.mapM (listRow server disk path)) (∀ name ∈ names, (filename path name).length < maxpath)
      fun _ => True := by
  constructor
  · intro hfits
    obtain ⟨rows, hrows, -⟩ := exists_mapM (f := listRow server disk path) fun name hname => by
      obtain ⟨row, hrow, -⟩ := (listRow_yields server disk path name).result (hfits name hname)
      exact ⟨row, hrow⟩
    exact ⟨rows, hrows, trivial⟩
  · intro hlong
    push Not at hlong
    obtain ⟨name, hname, hlen⟩ := hlong
    exact mapM_eq_none.mpr ⟨name, hname, (listRow_yields server disk path name).nothing (not_lt.mpr hlen)⟩

theorem listFolder_yields (server : Server) (disk : Disk) (path : Bytes) (names : List Bytes) :
    Yields (listFolder server disk path names) (∀ name ∈ names, (filename path name).length < maxpath)
      fun r => r.opened = [server.dirroot ++ 47 :: path] :=
  (rows_yields server disk path names).map fun _ _ => rfl

theorem shut_yields (path page : Bytes) :
    Yields (some (Response.mk page []))
      (∀ names ∈ (none : Option (List Bytes)), ∀ name ∈ names, (filename path name).length < maxpath)
      fun r => r.opened = [] := by
  constructor
  · exact fun _ => ⟨_, rfl, rfl⟩
  · intro hlong
    exact absurd (fun names hnames => absurd hnames (Option.not_mem_none names)) hlong

theorem giveResponse_yields (server : Server) (disk : Disk) (path : Bytes) :
    Yields (giveResponse server disk path)
      (∀ names ∈ disk.opens (server.dirroot ++ 47 :: path), ∀ name ∈ names,
        (filename path name).length < maxpath)
      fun r => r.opened =
        ((disk.opens (server.dirroot ++ 47 :: path)).map fun _ => server.dirroot ++ 47 :: path).toList := by
  unfold giveResponse Disk.opens
  dsimp only
  cases disk.stat (server.dirroot ++ 47 :: path) with
  | error errno => exact shut_yields path _
  | ok info =>
    dsimp only
    cases info.kind with
    | reg =>
      cases disk.openFile (server.dirroot ++ 47 :: path) with
      | none => exact shut_yields path _
      | some p =>
        constructor
        · exact fun _ => ⟨_, rfl, rfl⟩
        · intro hlong
          refine absurd (fun names hnames => ?_) hlong
          obtain rfl := Option.some.inj hnames
          exact List.forall_mem_nil _
    | dir =>
      cases disk.opendir (server.dirroot ++ 47 :: path) with
      | error errno => exact shut_yields path _
      | ok names =>
        refine (listFolder_yields server disk path names).iff ?_
        constructor
        · intro hfits names' hnames
          obtain rfl := Option.some.inj hnames
          exact hfits
        · exact fun hfits => hfits names rfl
    | _ => exact shut_yields path _

theorem excuteRequest_empty (server : Server) (disk : Disk) : excuteRequest server disk [] = some ⟨[], []⟩ := rfl

theorem excuteRequest_some (server : Server) (disk : Disk) {sent : Bytes} (h : sent ≠ []) :
    excuteRequest server disk sent =
      if (requestPath (sent.take maxbuf)).length ≤ maxpath then
        giveResponse server disk (requestPath (sent.take maxbuf))
      else none := by
  have hlen : 0 < (sent.take maxbuf).length := by
    rw [List.length_take]
    exact Nat.lt_min.mpr ⟨by decide, List.length_pos_iff.mpr h⟩
  rw [excuteRequest]
  dsimp only
  rw [if_pos hlen, scanReq_eq]

theorem opened_below_iff (server : Server) (disk : Disk) (cwd : List Bytes) (path : Bytes) :
    (∀ p ∈ ((disk.opens (server.dirroot ++ 47 :: path)).map fun _ => server.dirroot ++ 47 :: path).toList,
        resolvePath cwd (server.dirroot ++ [47]) <+: resolvePath cwd p) ↔
      ∀ names ∈ disk.opens (server.dirroot ++ 47 :: path),
        LeadsBack (resolvePath cwd (server.dirroot ++ [47])) (components path) := by
  cases disk.opens (server.dirroot ++ 47 :: path) with
  | none => simp
  | some names =>
    rw [← below_iff, ← resolvePath_slash]
    simp

theorem giveResponse_confined_iff (server : Server) (disk : Disk) (cwd : List Bytes) (path : Bytes) :
    (∃ r, giveResponse server disk path = some r ∧
      ∀ p ∈ r.opened, resolvePath cwd (server.dirroot ++ [47]) <+: resolvePath cwd p) ↔
    ∀ names ∈ disk.opens (server.dirroot ++ 47 :: path),
      LeadsBack (resolvePath cwd (server.dirroot ++ [47])) (components path) ∧
        ∀ name ∈ names, (filename path name).length < maxpath := by
  have hyields := giveResponse_yields server disk path
  constructor
  · rintro ⟨r, hr, hbelow⟩ names hnames
    obtain ⟨hfits, hopened⟩ := hyields.of_some hr
    rw [hopened] at hbelow
    exact ⟨(opened_below_iff server disk cwd path).mp hbelow names hnames, hfits names hnames⟩
  · intro h
    obtain ⟨r, hr, hopened⟩ := hyields.result fun names hnames => (h names hnames).2
    refine ⟨r, hr, ?_⟩
    rw [hopened]
    exact (opened_below_iff server disk cwd path).mpr fun names hnames => (h names hnames).1

theorem excuteRequest_confined_iff (server : Server) (disk : Disk) (cwd : List Bytes) (sent : Bytes) :
    Confined server disk cwd sent ↔ Harmless server disk cwd sent := by
  rw [Confined, Harmless]
  by_cases hsent : sent = []
  · rw [hsent, excuteRequest_empty]
    exact iff_of_true ⟨_, rfl, List.forall_mem_nil _⟩ (Or.inl rfl)
  · rw [excuteRequest_some server disk hsent, or_iff_right hsent, PathHarmless]
    by_cases hlen : (requestPath (sent.take maxbuf)).length ≤ maxpath
    · rw [if_pos hlen, and_iff_right hlen]
      exact giveResponse_confined_iff server disk cwd _
    · rw [if_neg hlen]
      refine iff_of_false ?_ fun h => hlen h.1
      rintro ⟨r, hr, -⟩
      cases hr

def defaultServer : Server := ⟨ascii "192.168.0.1", ascii "80", ascii "tmp/"⟩

def besideDisk : Disk where
  stat path := if path = ascii "tmp///../secret" then .ok ⟨.reg, 3, ascii "Thu Jan  1 00:00:00 1970\n"⟩ else .error 2
  openFile path := if path = ascii "tmp///../secret" then some (ascii "key") else none
  opendir _ := .error 2
  strerror _ := ascii "No such file or directory"

/-- The file beside `tmp` is sent to whoever asks for it. -/
theorem excuteRequest_leaves_dirroot :
    ¬ Confined defaultServer besideDisk [ascii "home"] (ascii "GET /../secret HTTP/1.1\r\n\r\n") := by
  have hpath : requestPath ((ascii "GET /../secret HTTP/1.1\r\n\r\n").take maxbuf) = ascii "/../secret" := by
    decide
  have hopens : besideDisk.opens (defaultServer.dirroot ++ 47 :: ascii "/../secret") = some [] := by decide
  rw [Confined, excuteRequest_some defaultServer besideDisk (by decide), hpath, if_pos (by decide),
    giveResponse_confined_iff, hopens]
  intro h
  exact absurd (h [] rfl).1 (by decide)

end SystemTestSuite.Dm2
