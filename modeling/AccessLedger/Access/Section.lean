import AccessLedger.Group

/-!
# Access sections

A section grants permissions under a name: a pattern of refs, or the global
capabilities.  A permission is an ordered list of rules, each for one group.
Two sections are equal when their names and all of their ordered content are.
-/

namespace AccessLedger

/-- What a rule does for the members of its group. -/
inductive RuleAction where
  | allow
  | deny
  | block
  | interactive
  | batch
  deriving DecidableEq, Repr

namespace RuleAction

def words : List (RuleAction × String) :=
  [(allow, "ALLOW"), (deny, "DENY"), (block, "BLOCK"), (interactive, "INTERACTIVE"),
   (batch, "BATCH")]

def codec : Codec RuleAction := .word words

end RuleAction

/-- The group that a rule is for. -/
structure GroupReference where
  uuid : GroupUuid
  name : String
  deriving DecidableEq, Repr

namespace GroupReference

def fields : Fields (GroupUuid × String × Unit) :=
  .cons (.required "uuid" GroupUuid.codec) <|
  .cons (.required "name" .string) .nil

def codec : Codec GroupReference :=
  fields.record.imap (fun (uuid, name, _) => ⟨uuid, name⟩) fun r => (r.uuid, r.name, ())

end GroupReference

/-- One rule of a permission; `min` and `max` bound the votes on a label. -/
structure PermissionRule where
  group : GroupReference
  action : RuleAction := .allow
  force : Bool := false
  min : Int32 := 0
  max : Int32 := 0
  deriving DecidableEq, Repr

namespace PermissionRule

def fields : Fields (GroupReference × RuleAction × Bool × Int32 × Int32 × Unit) :=
  .cons (.required "group" GroupReference.codec) <|
  .cons (.withDefault "action" RuleAction.codec .allow) <|
  .cons (.withDefault "force" .bool false) <|
  .cons (.withDefault "min" .int32 0) <|
  .cons (.withDefault "max" .int32 0) .nil

def codec : Codec PermissionRule :=
  fields.record.imap (fun (group, action, force, min, max, _) => ⟨group, action, force, min, max⟩)
    fun r => (r.group, r.action, r.force, r.min, r.max, ())

end PermissionRule

/-- A named permission and the rules that give or deny it. -/
structure Permission where
  name : String
  exclusive : Bool := false
  rules : List PermissionRule := []
  deriving DecidableEq, Repr

namespace Permission

def fields : Fields (String × Bool × List PermissionRule × Unit) :=
  .cons (.required "name" .string) <|
  .cons (.withDefault "exclusive" .bool false) <|
  .cons (.withDefault "rules" PermissionRule.codec.list []) .nil

def codec : Codec Permission :=
  fields.record.imap (fun (name, exclusive, rules, _) => ⟨name, exclusive, rules⟩)
    fun p => (p.name, p.exclusive, p.rules, ())

/-- The permission with only the rules that satisfy `keep`. -/
def retainRules (keep : PermissionRule → Bool) (p : Permission) : Permission :=
  { p with rules := p.rules.filter keep }

end Permission

/-- A named block of permissions. -/
structure AccessSection where
  name : String
  permissions : List Permission := []
  deriving DecidableEq, Repr

namespace AccessSection

def fields : Fields (String × List Permission × Unit) :=
  .cons (.required "name" .string) <|
  .cons (.withDefault "permissions" Permission.codec.list []) .nil

def codec : Codec AccessSection :=
  fields.record.imap (fun (name, permissions, _) => ⟨name, permissions⟩)
    fun s => (s.name, s.permissions, ())

/-- All rules of a section, in order. -/
def rules (s : AccessSection) : List PermissionRule := s.permissions.flatMap Permission.rules

/-- The groups that the rules of a section are for, in order. -/
def referencedGroups (s : AccessSection) : List GroupUuid := s.rules.map (·.group.uuid)

/-- The section with only the rules that satisfy `keep`; permissions stay even without rules. -/
def retainRules (keep : PermissionRule → Bool) (s : AccessSection) : AccessSection :=
  { s with permissions := s.permissions.map (Permission.retainRules keep) }

@[simp]
theorem retainRules_name (keep : PermissionRule → Bool) (s : AccessSection) :
    (s.retainRules keep).name = s.name := rfl

@[simp]
theorem rules_retainRules (keep : PermissionRule → Bool) (s : AccessSection) :
    (s.retainRules keep).rules = s.rules.filter keep := by
  simp only [rules, retainRules, List.flatMap_map, List.filter_flatMap]
  rfl

end AccessSection

/-- The name of the section that holds server-wide capabilities. -/
def globalCapabilities : String := "GLOBAL_CAPABILITIES"

/-- The name of the section whose owners may change every section of a project. -/
def allRefs : String := "refs/*"

end AccessLedger
