import Mathlib.Data.List.DropRight
import AccessBroker.MatrixBot.Replies
import AccessBroker.Nextcloud

/-! # The WebDAV adapter

What the transport raises, and the `lock` and `propfind` verbs of the adapter over what
webdav3 makes of the server's response.
-/

namespace AccessBroker.WebdavAdapter
open Py Nextcloud
set_option autoImplicit false

/-- `(password|token|secret)\S*`, with the case ignored. -/
def credentialRe : Regex :=
  .seq (.choice (MatrixBot.commandWord "password")
    [MatrixBot.commandWord "token", MatrixBot.commandWord "secret"])
    (.run (fun c => !isSpace c) 0 none)

def sanitize (message : Text) : Text :=
  (credentialRe.substitute "[redacted]".toList message).take 300

def webDavError (status : Int) (message : Text) : TransportError :=
  .webDav status (sanitize message)

example : sanitize "lock response carried no token".toList =
    "lock response carried no [redacted]".toList := by decide +kernel

/-- How `execute_request` ends for a LOCK. Anything else that it raises can come before or
after the server has granted the lock. -/
inductive LockResponse where
  | methodNotSupported
  | responseErrorCode (code : Option Int)
  | notFound
  | raised (exc : Text) (granted : Bool)
  | answered (lockToken : Option Text)
  deriving DecidableEq

def LockResponse.granted : LockResponse → Bool
  | methodNotSupported | responseErrorCode _ | notFound => false
  | raised _ granted => granted
  | answered _ => true

def statusFrom (code : Option Int) : Int := code.getD 500

def isAngle (c : Char) : Bool := c == '<' || c == '>'

/-- `strip("<>")`. -/
def stripAngles (text : Text) : Text :=
  ((text.dropWhile isAngle).reverse.dropWhile isAngle).reverse

def lock : LockResponse → Except TransportError Reply
  | .methodNotSupported => .error (webDavError 405 "files_lock not enabled on this instance".toList)
  | .responseErrorCode code => .error (webDavError (statusFrom code) "lock failed".toList)
  | .notFound => .error (webDavError 404 "Not Found".toList)
  | .raised exc _ => .error (.other exc)
  | .answered lockToken =>
    let token := stripAngles (lockToken.getD [])
    if token = [] then .error (webDavError 500 "lock response carried no token".toList)
    else .ok ⟨true, none, some token, true⟩

def LockResponse.Tokened (response : LockResponse) : Prop :=
  ∃ lockToken, response = .answered lockToken ∧ stripAngles (lockToken.getD []) ≠ []

theorem lock_ok_iff {response : LockResponse} :
    (∃ reply, lock response = .ok reply) ↔ response.Tokened := by
  constructor
  · rintro ⟨reply, h⟩
    cases response with
    | answered lockToken =>
      refine ⟨lockToken, rfl, fun hNone => ?_⟩
      rw [lock, hNone] at h
      cases h
    | methodNotSupported | responseErrorCode | notFound | raised => cases h
  · rintro ⟨lockToken, rfl, hToken⟩
    exact ⟨_, if_neg hToken⟩

theorem lock_isDict {response : LockResponse} {reply : Reply} (h : lock response = .ok reply) :
    reply.isDict = true := by
  obtain ⟨lockToken, rfl, hToken⟩ := lock_ok_iff.mp ⟨reply, h⟩
  rw [lock, if_neg hToken] at h
  cases h
  rfl

/-! ## Listings -/

/-- What is read of an info row; `isDir` is `str` of what stands under `is_dir`. -/
structure Info where
  name : Option Text
  path : Option Text
  isdir : Option Bool
  isDir : Option Text
  size : Option Text
  modified : Option Text

structure ListEntry where
  name : Text
  type : Text
  size : Option Text
  modified : Option Text
  deriving DecidableEq

/-- How `list` ends. A row that is no dict is `none`. -/
inductive ListResponse where
  | notFound
  | responseErrorCode (code : Option Int)
  | raised (exc : Text)
  | answered (infos : List (Option Info))

def isSlash (c : Char) : Bool := c == '/'

/-- `strip("/")`. -/
def stripSlashes (text : Text) : Text := (text.dropWhile isSlash).rdropWhile isSlash

def selfRootName (username : Text) : Text := username

def davPrefix : Text := "/remote.php/dav".toList

def filesBase (username : Text) : Text := "/files/".toList ++ username

def selfReferencePaths (username requested : Text) : List Text :=
  let norm := stripSlashes requested
  let base := filesBase username
  if norm = [] then [base, davPrefix ++ base]
  else [base ++ '/' :: norm, davPrefix ++ (base ++ '/' :: norm)]

/-- `path.rstrip("/").split("/")[-1]`. -/
def lastSegment (path : Text) : Text := ((path.rdropWhile isSlash).splitOn '/').getLastD []

def entryName (info : Info) (username : Text) : Option Text :=
  let name := info.name.getD []
  let name := if name = [] then lastSegment (info.path.getD []) else name
  let name := stripSlashes name
  if name = [] ∨ name = selfRootName username then none else some name

def entryIsDir (info : Info) : Bool :=
  match info.isdir with
  | some isDir => isDir
  | none => (info.isDir.getD []).map Char.toLower == "true".toList

def listEntry (username : Text) (selfPaths : List Text) (info : Info) : Option ListEntry :=
  if (info.path.getD []).rdropWhile isSlash ∈ selfPaths then none
  else (entryName info username).map fun name =>
    ⟨name, if entryIsDir info then "dir".toList else "file".toList, info.size, info.modified⟩

def propfind (username requested : Text) : ListResponse → Except TransportError (List ListEntry)
  | .notFound => .error (webDavError 404 "Not Found".toList)
  | .responseErrorCode code => .error (webDavError (statusFrom code) "listing failed".toList)
  | .raised exc => .error (.other exc)
  | .answered infos =>
    let selfPaths := selfReferencePaths username requested
    .ok (infos.filterMap fun info => info.bind (listEntry username selfPaths))

end AccessBroker.WebdavAdapter
