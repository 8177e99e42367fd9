import MusicCatalog.Json.Fault

/-!
# Failures

* `TransportCause`, `FileCause`: why a request or a file operation failed;
* **`Failure`**, `Failure.message`: everything that can go wrong, and its wording;
* `Failure.isRemote`: the failures that come from the site;
* `statusPhrase`: the name of a response status.
-/

namespace MusicCatalog

/-- The name of a response status, where it has one. -/
def statusPhrase : (status : Nat) → String
  | 100 => "Continue"
  | 101 => "Switching Protocols"
  | 102 => "Processing"
  | 103 => "Early Hints"
  | 200 => "OK"
  | 201 => "Created"
  | 202 => "Accepted"
  | 203 => "Non Authoritative Information"
  | 204 => "No Content"
  | 205 => "Reset Content"
  | 206 => "Partial Content"
  | 207 => "Multi-Status"
  | 208 => "Already Reported"
  | 226 => "IM Used"
  | 300 => "Multiple Choices"
  | 301 => "Moved Permanently"
  | 302 => "Found"
  | 303 => "See Other"
  | 304 => "Not Modified"
  | 305 => "Use Proxy"
  | 307 => "Temporary Redirect"
  | 308 => "Permanent Redirect"
  | 400 => "Bad Request"
  | 401 => "Unauthorized"
  | 402 => "Payment Required"
  | 403 => "Forbidden"
  | 404 => "Not Found"
  | 405 => "Method Not Allowed"
  | 406 => "Not Acceptable"
  | 407 => "Proxy Authentication Required"
  | 408 => "Request Timeout"
  | 409 => "Conflict"
  | 410 => "Gone"
  | 411 => "Length Required"
  | 412 => "Precondition Failed"
  | 413 => "Payload Too Large"
  | 414 => "URI Too Long"
  | 415 => "Unsupported Media Type"
  | 416 => "Range Not Satisfiable"
  | 417 => "Expectation Failed"
  | 418 => "I'm a teapot"
  | 421 => "Misdirected Request"
  | 422 => "Unprocessable Entity"
  | 423 => "Locked"
  | 424 => "Failed Dependency"
  | 425 => "Too Early"
  | 426 => "Upgrade Required"
  | 428 => "Precondition Required"
  | 429 => "Too Many Requests"
  | 431 => "Request Header Fields Too Large"
  | 451 => "Unavailable For Legal Reasons"
  | 500 => "Internal Server Error"
  | 501 => "Not Implemented"
  | 502 => "Bad Gateway"
  | 503 => "Service Unavailable"
  | 504 => "Gateway Timeout"
  | 505 => "HTTP Version Not Supported"
  | 506 => "Variant Also Negotiates"
  | 507 => "Insufficient Storage"
  | 508 => "Loop Detected"
  | 510 => "Not Extended"
  | 511 => "Network Authentication Required"
  | _ => "<unknown status code>"

/-- Why no complete response arrived. -/
inductive TransportCause where
  /-- The client or the request could not be put together. -/
  | unbuildable
  /-- Requests to this address are not supported. -/
  | unsupported (url : String)
  /-- The request found no answer. -/
  | unanswered (url : String)
  /-- The body broke off. -/
  | brokenBody
deriving DecidableEq

/-- The wording of a transport failure. -/
def TransportCause.message : TransportCause → String
  | unbuildable => "builder error"
  | unsupported url => "builder error for url (" ++ url ++ ")"
  | unanswered url => "error sending request for url (" ++ url ++ ")"
  | brokenBody => "error decoding response body"

/-- Why a file could not be used. -/
inductive FileCause where
  | noSuchEntry
  | notDirectory
  | isDirectory
  | nameTooLong
  | nulInName
  | other (text : String)
deriving DecidableEq

/-- The wording of a file failure. -/
def FileCause.message : FileCause → String
  | noSuchEntry => "No such file or directory (os error 2)"
  | notDirectory => "Not a directory (os error 20)"
  | isDirectory => "Is a directory (os error 21)"
  | nameTooLong => "File name too long (os error 36)"
  | nulInName => "file name contained an unexpected NUL byte"
  | other text => text

/-- What can go wrong. -/
inductive Failure where
  /-- No complete response arrived. -/
  | transport (cause : TransportCause)
  /-- The site answered with a status that is no success. -/
  | response (status : Nat) (url : String)
  /-- The listing is not a JSON list of objects. -/
  | parse (refusal : Json.Refusal)
  /-- A piece lacks something that is needed. -/
  | malformedRecord (detail : String)
  /-- A file could not be used. -/
  | file (cause : FileCause)
  /-- A snapshot has no written form. -/
  | serialize (detail : String)

namespace Failure

/-- The piece at a position, counted from zero, has no file name. -/
def noFilename (position : Nat) : Failure :=
  .malformedRecord ("piece at position " ++ toString position ++ " has no filename")

/-- The wording of a failure. -/
def message : Failure → String
  | transport cause => "Transport error: " ++ cause.message
  | response status url =>
    "Unexpected response " ++ toString status ++ " " ++ statusPhrase status ++ " from " ++ url
  | parse refusal => "Parse error: " ++ refusal.message
  | malformedRecord detail => "Malformed record: " ++ detail
  | file cause => "IO error: " ++ cause.message
  | serialize detail => "Serialize error: " ++ detail

/-- The failure comes from talking to the site. -/
def isRemote : Failure → Bool
  | transport _ | response _ _ => true
  | _ => false

end Failure

end MusicCatalog
