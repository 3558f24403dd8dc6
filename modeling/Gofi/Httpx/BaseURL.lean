import Gofi.Go.Url
import Gofi.Text.DotSegments

/-! `client_request.go`: the URL of a request is the base URL of its client with a
path behind it, which must not leave the base; and the ways in which servers
normalise the path that is sent. -/

namespace Gofi.Httpx

open Gofi.Go Gofi.Go.Url Gofi.Text

def Below (base path : Str) : Prop := path = base ∨ base ++ [47] <+: path

instance (base path : Str) : Decidable (Below base path) := inferInstanceAs (Decidable (_ ∨ _))

def dots : Dots Str := ⟨ascii ".", ascii ".."⟩

def clean (path : Str) : Str := 47 :: [47].intercalate (dots.resolve ((split 47 path).filter (· ≠ [])))

def trimSlash (path : Str) : Str := if path.getLast? = some 47 then path.dropLast else path

/-- The error of `url.Parse`, or one that wraps `ErrURLOutsideBase`. -/
inductive JoinError where
  | invalidURL
  | outsideBase (text : Str)
  deriving DecidableEq

variable (parseAuthority : Str → Option Authority)

def joinBaseURL (quote : Str → Str) (base path : Str) : Except JoinError Str :=
  if base = [] then .ok (base ++ path)
  else
    match parse parseAuthority base, parse parseAuthority (base ++ path) with
    | some b, some u =>
      if u.scheme ≠ b.scheme ∨ u.authority.host ≠ b.authority.host ∨ u.authority.user ≠ b.authority.user ∨
          ¬ Below (trimSlash b.path) (clean (47 :: u.path)) then
        .error (.outsideBase (ascii "httpx: request URL escapes the client base URL: " ++ quote path))
      else .ok (base ++ path)
    | _, _ => .error .invalidURL

structure Sent where
  scheme : Str
  authority : Authority
  path : Str
  deriving DecidableEq

def send (url : Str) : Option Sent :=
  (parse parseAuthority url).bind fun u =>
    if u.authority.host = [] then none
    else some ⟨u.scheme, u.authority, if u.escapedPath = [] then [47] else u.escapedPath⟩

/-- How a server normalises a path: whether it decodes before it removes the dot
segments, and whether it merges repeated slashes. -/
structure Way where
  decodesFirst : Bool
  mergesSlashes : Bool
  deriving DecidableEq

def segments (path : Str) : List Str := split 47 (path.drop 1)

def merged (parts : List Str) : List Str := parts.dropLast.filter (· ≠ []) ++ [parts.getLast?.getD []]

def closed (parts : List Str) : List Str :=
  if parts.getLast? = some dots.here ∨ parts.getLast? = some dots.above then parts ++ [[]] else parts

def Way.walk (way : Way) (parts : List Str) : List Str := closed (if way.mergesSlashes then merged parts else parts)

def printed (parts : List Str) : Str := 47 :: [47].intercalate parts

/-- The path as the server sees it; `none` when it cannot be decoded. -/
def Way.normalise (way : Way) (path : Str) : Option Str :=
  if way.decodesFirst then (unescape path).map fun text => printed (dots.resolve (way.walk (segments text)))
  else unescape (printed (dots.resolve (way.walk (segments path))))

def Way.Contains (way : Way) (base path : Str) : Prop := ∃ text, way.normalise path = some text ∧ Below base text

/-- The request has the scheme, userinfo and host of the base URL, and a path that
every server finds at or below that of the base. -/
def StaysInside (base : Str) (sent : Sent) : Prop :=
  ∃ b, parse parseAuthority base = some b ∧ sent.scheme = b.scheme ∧ sent.authority = b.authority ∧
    ∀ way : Way, way.Contains (trimSlash b.path) sent.path

def names (base : Str) : List Str :=
  match base with
  | [] => []
  | _ :: rest => split 47 rest

def Way.parts (way : Way) (path : Str) : List Str :=
  way.walk (segments (if way.decodesFirst then (unescape path).getD [] else path))

def Way.reads (way : Way) (part : Str) : List Str :=
  split 47 (if way.decodesFirst then part else (unescape part).getD [])

def Way.Enters (way : Way) (base path : Str) : Prop := dots.Enters way.reads (names base) (way.parts path)

end Gofi.Httpx
