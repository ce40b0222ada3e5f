import Mathlib.Data.List.Sort
import AccessBroker.System

/-! # The two surfaces behind one port

The dispatcher of `run.py`: a path prefix picks the surface, and the surface's
own bearer token lets a request through to the tools registered on it.
-/

namespace AccessBroker.Entrypoint
open Py Server AccessBroker.System
set_option autoImplicit false

/-- An HTTP request, with the tool calls that the protocol library reads in its body. -/
structure Request where
  path : Text
  headers : List (Text × Nextcloud.Bytes)
  calls : List Tool

inductive Response where
  | json (status : Nat) (error : Text)
  | app (surface : Surface)
  deriving DecidableEq

def Response.notFound : Response := .json 404 "not found".toList

def Response.unauthorized : Response := .json 401 "unauthorized".toList

/-! ## Bearer tokens -/

/-- Header values are read as Latin-1. -/
def latin1 (bytes : Nextcloud.Bytes) : Text := bytes.map fun b => Char.ofNat b.toNat

/-- `str.lower` of a character that Latin-1 can write. -/
def lowerLatin1 (c : Char) : Char :=
  if 0xC0 ≤ c.toNat ∧ c.toNat ≤ 0xDE ∧ c.toNat ≠ 0xD7 then Char.ofNat (c.toNat + 32)
  else c.toLower

def Request.authorization (req : Request) : Text :=
  latin1 ((req.headers.lookup "authorization".toList).getD [])

def bearerToken (header : Text) : Option Text :=
  if startsWith (header.map lowerLatin1) "bearer ".toList then some (header.drop 7) else none

def encode (text : Text) : Nextcloud.Bytes := text.flatMap String.utf8EncodeChar

def checkAuth (provided : Option Text) (expected : Text) : Bool :=
  match provided with
  | none | some [] => false
  | some provided => encode provided == encode expected

/-- An app behind the token it is reached with. -/
structure BearerMiddleware where
  app : Surface
  token : Text

def BearerMiddleware.answer (guard : BearerMiddleware) (req : Request) : Response :=
  if checkAuth (bearerToken req.authorization) guard.token then .app guard.app
  else .unauthorized

/-! ## Paths -/

abbrev Routes := List (Text × BearerMiddleware)

/-- Longest prefix first. -/
def pathDispatch (routes : Routes) : Routes :=
  routes.insertionSort fun a b => b.1.length ≤ a.1.length

def Routes.answer (routes : Routes) (req : Request) : Response :=
  match routes.find? fun route =>
      req.path == route.1 || startsWith req.path (route.1 ++ ['/']) with
  | some route => route.2.answer req
  | none => .notFound

def mount : Surface → Text
  | .agent => "/mcp".toList
  | .transfer => "/transfer".toList

def buildDualApp (agentToken transferToken : Text) : Routes :=
  pathDispatch
    [(mount .agent, ⟨.agent, agentToken⟩),
      (mount .transfer, ⟨.transfer, transferToken⟩)]

/-- `main` mounts the surfaces behind the two tokens of the configuration. -/
def answer (config : Config.AgentConfig) (req : Request) : Response :=
  (buildDualApp config.token config.transferToken).answer req

/-! ## Requests -/

/-- The calls of a request that reached an app are made on its surface. -/
def serve (w : Wiring) (env : Nextcloud.Environment) (config : Config.AgentConfig)
    (s : Broker) (req : Request) : Broker :=
  match answer config req with
  | .json _ _ => s
  | .app surface => req.calls.foldl (fun s tool => s.step w env (.call surface tool)) s

end AccessBroker.Entrypoint
