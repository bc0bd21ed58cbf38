import CloutQuery.Text.Quoted

namespace CloutQuery

inductive ElementKind where
  | nodeTemplate
  | relationship
  | group
  | member
  | policy
  | nodeTemplateTarget
  | groupTarget
  | workflow
  | workflowStep
  | workflowActivity
  | onSuccess
  | onFailure
  | substitution
  | capabilityMapping
  | requirementMapping
  | propertyMapping
  | interfaceMapping
deriving DecidableEq

namespace ElementKind

def all : List ElementKind :=
  [nodeTemplate, relationship, group, member, policy, nodeTemplateTarget, groupTarget, workflow,
    workflowStep, workflowActivity, onSuccess, onFailure, substitution, capabilityMapping,
    requirementMapping, propertyMapping, interfaceMapping]

def name : ElementKind → String
  | nodeTemplate => "NodeTemplate"
  | relationship => "Relationship"
  | group => "Group"
  | member => "Member"
  | policy => "Policy"
  | nodeTemplateTarget => "NodeTemplateTarget"
  | groupTarget => "GroupTarget"
  | workflow => "Workflow"
  | workflowStep => "WorkflowStep"
  | workflowActivity => "WorkflowActivity"
  | onSuccess => "OnSuccess"
  | onFailure => "OnFailure"
  | substitution => "Substitution"
  | capabilityMapping => "CapabilityMapping"
  | requirementMapping => "RequirementMapping"
  | propertyMapping => "PropertyMapping"
  | interfaceMapping => "InterfaceMapping"

def ofName? (s : String) : Option ElementKind := all.find? (·.name = s)

def unknownMessage (s : String) : String := "unknown element kind " ++ Text.quoted s

end ElementKind

end CloutQuery
