import AccessLedger.Access.Config

/-!
# Merging a request into the stored sections

A user may change some of the sections of a project.  `mergeSections` is what
is stored when such a user asks for a list of sections: their own sections as
requested, without the rules for unknown groups; the sections of others as
they were stored.
-/

namespace AccessLedger

/--
What becomes of a requested section: one that may be changed is taken without
the rules for unknown groups, another one is as it was stored, if it was.
-/
def mergeRequested (canChange : String → Bool) (isKnown : GroupUuid → Bool)
    (stored : List AccessSection) (s : AccessSection) : Option AccessSection :=
  if canChange s.name then some (s.retainRules fun r => isKnown r.group.uuid)
  else stored.find? (·.name = s.name)

/-- Whether a stored section stays although it is not requested: it may not be changed. -/
def survives (canChange : String → Bool) (requested : List AccessSection) (s : AccessSection) :
    Bool :=
  !requested.any (·.name = s.name) && !canChange s.name

/-- The sections to store: the requested ones in their order, then those that stay. -/
def mergeSections (canChange : String → Bool) (isKnown : GroupUuid → Bool)
    (stored requested : List AccessSection) : List AccessSection :=
  requested.filterMap (mergeRequested canChange isKnown stored) ++
    stored.filter (survives canChange requested)

end AccessLedger
