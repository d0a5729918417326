import ScriptHost.Record
import ScriptHost.Route.Template
import ScriptHost.Text.Expression
import ScriptHost.Text.Quoted
/-!
# Routing

A router maps paths to the names of routes.  Routes are tried in the order in which their names were
first added, and the first that fits the path and accepts the method is taken.  Adding a name again
replaces its pattern and its method in place.

A pattern is a template.  If the text of a hole is no name, the whole pattern is read by a library
`R` as the regular expression that it writes out to, in which a hole is a named group: so a hole may
go on, behind a name and a `>`, with an expression, and captures what that expression matches,
another `>` and the rest of the segment.
-/

set_option autoImplicit false

namespace ScriptHost

/-! ## Patterns -/

/-- What a pattern comes to. -/
inductive RoutePattern (R : Regex) where
  | template (parts : List RoutePart)
  | expression (e : R.Compiled)

namespace RoutePattern

variable {R : Regex}

/-- A library that can stand for the one that is not given. -/
abbrev dialect : Regex := Expression.regex isHoleName

/-- The regular expression that a template writes out to. -/
def source (parts : List RoutePart) : List Char :=
  '^' :: (parts.flatMap fun
    | .text cs => Expression.quote cs
    | .hole inside => "(?P<".toList ++ inside ++ ">[^/]+)".toList) ++ ['$']

/-- The pattern that a text writes.  No two holes may have one name. -/
def ofText? (text : String) : Option (RoutePattern R) :=
  let parts := RoutePart.scan text.toList
  let names := RouteTemplate.holes parts
  if names.all isHoleName then
    if names.Nodup then some (.template parts) else none
  else (R.compile? (source parts)).map .expression

/-- What the holes of the pattern capture in a path that fits it. -/
def capture? (p : RoutePattern R) (path : String) : Option (Record String) :=
  let captured : Option (List (String × String)) := match p with
    | template parts => (RouteTemplate.fill? parts path.toList).map fun filling =>
      filling.map fun (name, cs) => (String.ofList name, String.ofList cs)
    | expression e => R.captures? e path
  captured.map Record.ofList

end RoutePattern

/-! ## Routes -/

/-- A pattern under a name. -/
structure Route (R : Regex) where
  name : String
  pattern : String
  form : RoutePattern R
  /-- The only method that is accepted; if there is none, any is. -/
  method : Option String

/-- The route that has been found for a path, and what it has captured. -/
structure RouteMatch where
  name : String
  captured : Record String
deriving DecidableEq, Repr

/-- Why there is no route. -/
inductive RouteFault where
  | notFound (path : String)
  | methodNotAllowed (route method : String)
  | invalidPattern (pattern : String)
deriving DecidableEq, Repr

/-- How the fault is told. -/
def RouteFault.message : RouteFault → String
  | notFound path => "route not found: " ++ path
  | methodNotAllowed route method => "method " ++ method ++ " not allowed for route " ++ route
  | invalidPattern pattern => "invalid route pattern " ++ Text.quoted pattern

namespace Route

variable {R : Regex}

/-- Whether the route takes a method, up to the case of ASCII letters. -/
def accepts (r : Route R) (method : String) : Bool :=
  match r.method with
  | none => true
  | some allowed => Text.sameIgnoringCase allowed method

/-- What is found if the route fits the path. -/
def match? (r : Route R) (path : String) : Option RouteMatch :=
  (r.form.capture? path).map fun captured => ⟨r.name, captured⟩

end Route

/-- The routes in the order in which they are tried. -/
structure Router (R : Regex) where
  routes : List (Route R) := []

namespace Router

variable {R : Regex}

/-- Puts a route in the place of the one with its name, or at the end. -/
def place (r : Route R) : List (Route R) → List (Route R)
  | [] => [r]
  | r' :: rest => if r'.name = r.name then r :: rest else r' :: place r rest

/-- Adds a route under a name; a pattern that cannot be read changes nothing. -/
def add (router : Router R) (name pattern : String) (method : Option String) :
    Except RouteFault (Router R) :=
  match RoutePattern.ofText? pattern with
  | none => .error (.invalidPattern pattern)
  | some form => .ok ⟨place { name, pattern, form, method := method.map Text.upper } router.routes⟩

/-- The pattern that a name has been added with. -/
def pattern? (router : Router R) (name : String) : Option String :=
  (router.routes.find? (·.name = name)).map (·.pattern)

/-- The first route that fits a path, whatever its method. -/
def resolve? (router : Router R) (path : String) : Option RouteMatch :=
  router.routes.findSome? (·.match? path)

/-- The first route that fits a path and accepts a method. -/
def route (router : Router R) (method path : String) : Except RouteFault RouteMatch :=
  match router.routes.findSome? fun r => if r.accepts method then r.match? path else none with
  | some found => .ok found
  | none =>
    match router.resolve? path with
    | some refused => .error (.methodNotAllowed refused.name method)
    | none => .error (.notFound path)

end Router

end ScriptHost
