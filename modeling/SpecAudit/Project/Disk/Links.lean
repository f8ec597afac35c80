import SpecAudit.Project.Disk.Basic

/-!
# Following links

Following a path goes through links, of which no more than `maxLinks` may be met.  Resolving a path
replaces its links by where they lead and keeps what is not there.
-/

namespace SpecAudit.Project

/-- The most links that may be met on the way along a path. -/
def maxLinks : Nat := 40

/-- Where a path leads: to an entry that is no link, or to a name that is free in a directory. -/
inductive Reached where
  | present (place : Place)
  | free (place : Place)

/-- Where a name leads under which there is nothing, with more names behind it. -/
def walkOff (place : Place) (name : String) (rest : List String) : Except DiskFault Reached :=
  if maxNameBytes < nameBytes name then .error .nameTooLong
  else if rest.isEmpty then .ok (.free (place ++ [name]))
  else .error .notFound

/-- Follow names from a place; `follow` goes on where a link is met. -/
def walk (top : Entry) (follow : Place → List String → Except DiskFault Reached) :
    Place → List String → Except DiskFault Reached
  | place, [] => .ok (.present place)
  | place, name :: rest =>
    match top.at? place with
    | some (.directory _) =>
      if name == ".." then walk top follow place.dropLast rest
      else
        match top.at? (place ++ [name]) with
        | some (.link target) =>
          follow (if isAbsolute target then [] else place) (namesOf target ++ rest)
        | some _ => walk top follow (place ++ [name]) rest
        | none => walkOff place name rest
    | some .closedDirectory => .error .notPermitted
    | some _ => .error .notDirectory
    | none => .error .notFound

/-- Follow names from a place through at most the given number of links. -/
def follow (top : Entry) : Nat → Place → List String → Except DiskFault Reached
  | 0 => walk top fun _ _ => .error .tooManyLinks
  | links + 1 => walk top (follow top links)

/-- Where names lead from the top. -/
def reach (top : Entry) (names : List String) : Except DiskFault Reached :=
  if maxPathBytes < pathBytes names then .error .nameTooLong
  else follow top maxLinks [] names

/-- The entry that names lead to from a place, if they lead to one. -/
def entryFrom? (top : Entry) (place : Place) (names : List String) : Option Entry :=
  match follow top maxLinks place names with
  | .ok (.present place) => top.at? place
  | _ => none

/-- The entry that names lead to from the top, if they lead to one. -/
def entry? (top : Entry) (names : List String) : Option Entry :=
  match reach top names with
  | .ok (.present place) => top.at? place
  | _ => none

/-- The entry that names lead to from the top, if there is one.  That there is none is no fault; a
name that is too long is one, and a directory on the way that may not be entered. -/
def lookUp (top : Entry) (names : List String) : Except DiskFault (Option Entry) :=
  match reach top names with
  | .ok (.present place) => .ok (top.at? place)
  | .ok (.free _) => .ok none
  | .error fault => if fault.saysAbsent then .ok none else .error fault

/-! ## Resolving links -/

namespace Entry

/-- The number of names in the targets of all links, and of the links themselves. -/
def linkWeight : Entry → Nat
  | link target => (namesOf target).length + 2
  | directory entries => weigh entries
  | file _ | closedFile | closedDirectory => 0
where
  /-- The weight of the entries of a directory. -/
  weigh : List (String × Entry) → Nat
    | [] => 0
    | (_, entry) :: rest => linkWeight entry + weigh rest

end Entry

/-- What is still to be done while links are resolved: go to a name, or note where a link led. -/
inductive Hop where
  | enter (name : String)
  | arrive (link : Place)

/-- The names that are still to be gone to. -/
def Hop.names : List Hop → List String
  | [] => []
  | enter name :: rest => name :: Hop.names rest
  | arrive _ :: rest => Hop.names rest

/-- The place where hops lead, with links replaced by where they lead; names that are not there
are kept.  `known` holds the links met so far, with where they lead once that is known; a link
that is met again before that is kept, and so is what comes after it. -/
def resolveHops (top : Entry) :
    Nat → List (Place × Option Place) → Place → List Hop → Place
  | _, _, place, [] => place
  | 0, _, place, hops => lexically place (Hop.names hops)
  | fuel + 1, known, place, .arrive link :: hops =>
    resolveHops top fuel ((link, some place) :: known) place hops
  | fuel + 1, known, place, .enter name :: hops =>
    if name == ".." then resolveHops top fuel known place.dropLast hops
    else
      let next := place ++ [name]
      match top.at? next with
      | some (.link target) =>
        match known.lookup next with
        | some (some place) => resolveHops top fuel known place hops
        | some none => lexically next (Hop.names hops)
        | none =>
          resolveHops top fuel ((next, none) :: known)
            (if isAbsolute target then [] else place)
            ((namesOf target).map .enter ++ .arrive next :: hops)
      | _ => resolveHops top fuel known next hops

/-- The place that names lead to from the top, with every link replaced by where it leads. -/
def resolved (top : Entry) (names : List String) : Place :=
  resolveHops top (names.length + top.linkWeight + 1) [] [] (names.map .enter)

/-- The place that names lead to, unless links go round in circles there. -/
def resolve (top : Entry) (names : List String) : Except DiskFault Place :=
  let place := resolved top names
  match reach top place with
  | .error .tooManyLinks => .error .tooManyLinks
  | _ => .ok place

end SpecAudit.Project
