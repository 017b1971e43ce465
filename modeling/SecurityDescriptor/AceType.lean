/-!
# Types of access control entries

The twenty assigned type codes, their names, and what the decoder knows of them:
four types have a form, an access that they allow or deny and a layout of the bytes
after the entry's header.  All others are assigned but not decoded.

    ofCode? t.code = some t                      (ofCode?_code)
    ofForm a l = t ↔ t.form? = some (a, l)       (ofForm_eq_iff)
-/

namespace SecurityDescriptor

/-- What an entry does with the rights it names. -/
inductive Access where
  | allow
  | deny
deriving DecidableEq, Repr

/-- How the bytes after an entry's header are laid out. -/
inductive Layout where
  /-- A mask and a SID. -/
  | plain
  /-- A mask, a flag word, the GUIDs it announces, and a SID. -/
  | object
deriving DecidableEq, Repr

/-- The assigned entry types. -/
inductive AceType where
  | accessAllowed
  | accessDenied
  | systemAudit
  | systemAlarm
  | accessAllowedCompound
  | accessAllowedObject
  | accessDeniedObject
  | systemAuditObject
  | systemAlarmObject
  | accessAllowedCallback
  | accessDeniedCallback
  | accessAllowedCallbackObject
  | accessDeniedCallbackObject
  | systemAuditCallback
  | systemAlarmCallback
  | systemAuditCallbackObject
  | systemAlarmCallbackObject
  | systemMandatoryLabel
  | systemResourceAttribute
  | systemScopedPolicyId
deriving DecidableEq, Repr

namespace AceType

/-! ## Algorithm -/

/-- All types, by ascending code. -/
def all : List AceType :=
  [accessAllowed, accessDenied, systemAudit, systemAlarm, accessAllowedCompound,
    accessAllowedObject, accessDeniedObject, systemAuditObject, systemAlarmObject,
    accessAllowedCallback, accessDeniedCallback, accessAllowedCallbackObject,
    accessDeniedCallbackObject, systemAuditCallback, systemAlarmCallback,
    systemAuditCallbackObject, systemAlarmCallbackObject, systemMandatoryLabel,
    systemResourceAttribute, systemScopedPolicyId]

/-- The byte that stands for a type on the wire. -/
def code : AceType → UInt8
  | accessAllowed => 0x00
  | accessDenied => 0x01
  | systemAudit => 0x02
  | systemAlarm => 0x03
  | accessAllowedCompound => 0x04
  | accessAllowedObject => 0x05
  | accessDeniedObject => 0x06
  | systemAuditObject => 0x07
  | systemAlarmObject => 0x08
  | accessAllowedCallback => 0x09
  | accessDeniedCallback => 0x0a
  | accessAllowedCallbackObject => 0x0b
  | accessDeniedCallbackObject => 0x0c
  | systemAuditCallback => 0x0d
  | systemAlarmCallback => 0x0e
  | systemAuditCallbackObject => 0x0f
  | systemAlarmCallbackObject => 0x10
  | systemMandatoryLabel => 0x11
  | systemResourceAttribute => 0x12
  | systemScopedPolicyId => 0x13

/-- The name of a type. -/
def name : AceType → String
  | accessAllowed => "ACCESS_ALLOWED_ACE_TYPE"
  | accessDenied => "ACCESS_DENIED_ACE_TYPE"
  | systemAudit => "SYSTEM_AUDIT_ACE_TYPE"
  | systemAlarm => "SYSTEM_ALARM_ACE_TYPE"
  | accessAllowedCompound => "ACCESS_ALLOWED_COMPOUND_ACE_TYPE"
  | accessAllowedObject => "ACCESS_ALLOWED_OBJECT_ACE_TYPE"
  | accessDeniedObject => "ACCESS_DENIED_OBJECT_ACE_TYPE"
  | systemAuditObject => "SYSTEM_AUDIT_OBJECT_ACE_TYPE"
  | systemAlarmObject => "SYSTEM_ALARM_OBJECT_ACE_TYPE"
  | accessAllowedCallback => "ACCESS_ALLOWED_CALLBACK_ACE_TYPE"
  | accessDeniedCallback => "ACCESS_DENIED_CALLBACK_ACE_TYPE"
  | accessAllowedCallbackObject => "ACCESS_ALLOWED_CALLBACK_OBJECT_ACE_TYPE"
  | accessDeniedCallbackObject => "ACCESS_DENIED_CALLBACK_OBJECT_ACE_TYPE"
  | systemAuditCallback => "SYSTEM_AUDIT_CALLBACK_ACE_TYPE"
  | systemAlarmCallback => "SYSTEM_ALARM_CALLBACK_ACE_TYPE"
  | systemAuditCallbackObject => "SYSTEM_AUDIT_CALLBACK_OBJECT_ACE_TYPE"
  | systemAlarmCallbackObject => "SYSTEM_ALARM_CALLBACK_OBJECT_ACE_TYPE"
  | systemMandatoryLabel => "SYSTEM_MANDATORY_LABEL_ACE_TYPE"
  | systemResourceAttribute => "SYSTEM_RESOURCE_ATTRIBUTE_ACE_TYPE"
  | systemScopedPolicyId => "SYSTEM_SCOPED_POLICY_ID_ACE_TYPE"

/-- The type that a byte stands for. -/
def ofCode? (b : UInt8) : Option AceType := all.find? (·.code == b)

/-- The type that a number stands for. -/
def ofInt? (n : Int) : Option AceType := all.find? (fun t => (t.code.toNat : Int) == n)

/-- What is wrong with a number that stands for no type. -/
def invalidMessage (n : Int) : String := toString n ++ " is not a valid ACEType"

/-- The access and the layout of the types that are decoded. -/
def form? : AceType → Option (Access × Layout)
  | accessAllowed => some (.allow, .plain)
  | accessDenied => some (.deny, .plain)
  | accessAllowedObject => some (.allow, .object)
  | accessDeniedObject => some (.deny, .object)
  | _ => none

/-- The type with a given access and layout. -/
def ofForm : Access → Layout → AceType
  | .allow, .plain => accessAllowed
  | .deny, .plain => accessDenied
  | .allow, .object => accessAllowedObject
  | .deny, .object => accessDeniedObject

/-! ## Lemmas -/

theorem mem_all (t : AceType) : t ∈ all := by
  cases t <;> decide

theorem ofCode?_code (t : AceType) : ofCode? t.code = some t := by
  cases t <;> decide

theorem code_of_ofCode? {b : UInt8} {t : AceType} (h : ofCode? b = some t) : t.code = b := by
  have := List.find?_some h
  simpa using this

/-- A form belongs to exactly one type. -/
theorem ofForm_eq_iff (a : Access) (l : Layout) (t : AceType) :
    ofForm a l = t ↔ t.form? = some (a, l) := by
  constructor
  · rintro rfl
    cases a <;> cases l <;> rfl
  · intro h
    cases t <;> simp only [form?, Option.some.injEq, Prod.mk.injEq, reduceCtorEq] at h <;>
      obtain ⟨rfl, rfl⟩ := h <;> rfl

end AceType

end SecurityDescriptor
