/-!
The answers to questions about the program's health. A page answers two methods only, and a question
for its head alone is answered without a body.
-/

namespace CashHerald.Service.Health

/-- The pages that exist. -/
inductive Page where
  | health
  | ready
  | samples
  deriving DecidableEq, Repr

/-- The methods that a page may be asked with. -/
inductive Method where
  | get
  | head
  | other
  deriving DecidableEq, Repr

/-- The text of the samples depends on the running counters and is written elsewhere. -/
inductive Body where
  | empty
  | text (content : String)
  | samples
  deriving DecidableEq, Repr

structure Reply where
  status : Nat
  contentType : Option String
  allowed : Option String
  body : Body
  deriving DecidableEq, Repr

def Method.ofName : String → Method
  | "GET" => .get
  | "HEAD" => .head
  | _ => .other

def Page.ofPath? : String → Option Page
  | "/health" => some .health
  | "/ready" => some .ready
  | "/metrics" => some .samples
  | _ => none

/-- A scheme is made of ASCII letters, digits and four marks. -/
def isSchemeCharacter (character : Char) : Bool :=
  character.isAlphanum || ['+', '-', '.', '~'].contains character

/-- The text behind the scheme and the two slashes that a text may start with. -/
def behindScheme? : List Char → Option (List Char)
  | [] => none
  | ':' :: rest =>
    match rest with
    | '/' :: '/' :: behind => some behind
    | _ => none
  | character :: rest => if isSchemeCharacter character then behindScheme? rest else none

/-- A target without its query and its fragment. -/
def withoutQuery (target : List Char) : List Char :=
  target.takeWhile fun character => character ≠ '?' ∧ character ≠ '#'

/-- The path of a target, which may name a scheme and a host in front of it. -/
def path (target : String) : String :=
  match behindScheme? target.toList with
  | none => String.ofList (withoutQuery target.toList)
  | some behind =>
    match (withoutQuery behind).dropWhile (· ≠ '/') with
    | [] => "/"
    | whole => String.ofList whole

/-- A status as the page of a program that is connected to its feed, or is not, states it. -/
def statusText (status : String) (connected : Bool) : String :=
  "\x7b\"status\":\"" ++ status ++ "\",\"feed_connected\":" ++
    (if connected then "true" else "false") ++ "\x7d"

/-- The answer to a question for a page; a program is ready while it is connected to its feed. -/
def Page.reply (page : Page) (connected : Bool) : Reply :=
  match page with
  | .health => ⟨200, some "application/json", none, .text (statusText "ok" connected)⟩
  | .ready =>
    if connected then ⟨200, some "application/json", none, .text (statusText "ready" connected)⟩
    else ⟨503, some "application/json", none, .text (statusText "not_ready" connected)⟩
  | .samples => ⟨200, some "text/plain; charset=utf-8", none, .samples⟩

/-- The same answer without its body. -/
def Reply.headOnly (reply : Reply) : Reply :=
  ⟨reply.status, reply.contentType, reply.allowed, .empty⟩

def notFound : Reply :=
  ⟨404, none, none, .empty⟩

def methodRefused : Reply :=
  ⟨405, none, some "GET,HEAD", .empty⟩

/-- The answer to a method and a target. -/
def answer (method target : String) (connected : Bool) : Reply :=
  match Page.ofPath? (path target), Method.ofName method with
  | none, _ => notFound
  | some page, .get => page.reply connected
  | some page, .head => (page.reply connected).headOnly
  | some _, .other => methodRefused

end CashHerald.Service.Health
