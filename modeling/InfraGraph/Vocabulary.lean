/-!
# Vocabularies

Operations, dependencies and formats are named by words of closed vocabularies. A word is known
by its text; in capitals the text is the member's name.
-/

namespace InfraGraph

/-- A finite list of words with pairwise different texts. -/
class Vocabulary (κ : Type) where
  words : List κ
  text : κ → String

def Vocabulary.read? {κ : Type} [Vocabulary κ] (s : String) : Option κ :=
  (Vocabulary.words : List κ).find? fun word => Vocabulary.text word == s

/-- The name of a word: its text in capitals. -/
def Vocabulary.member {κ : Type} [Vocabulary κ] (word : κ) : String :=
  (Vocabulary.text word).map Char.toUpper

/-- What an operation does, where it is one of the well-known actions. -/
inductive Action where
  | packageInstall | packageRemove | packageUpgrade
  | serviceStart | serviceStop | serviceRestart | serviceEnable | serviceDisable
  | fileWrite | fileCopy | fileTemplate | fileDelete | filePermissions
  | directoryCreate | directoryDelete
  | userCreate | userDelete | userModify
  | groupCreate | groupDelete | groupModify
  | networkInterface | networkRoute | firewallRule
  | scriptExecute | commandRun
  | computeInstanceCreate | computeInstanceDelete
  | storageBucketCreate | storageBucketDelete
  deriving DecidableEq, Repr, Inhabited

namespace Action

def all : List Action :=
  [packageInstall,packageRemove,packageUpgrade,serviceStart,serviceStop,serviceRestart,
   serviceEnable,serviceDisable,fileWrite,fileCopy,fileTemplate,fileDelete,filePermissions,
   directoryCreate,directoryDelete,userCreate,userDelete,userModify,groupCreate,groupDelete,
   groupModify,networkInterface,networkRoute,firewallRule,scriptExecute,commandRun,
   computeInstanceCreate,computeInstanceDelete,storageBucketCreate,storageBucketDelete]

/-- The text of an action. -/
def text : Action → String
  | packageInstall => "package_install"
  | packageRemove => "package_remove"
  | packageUpgrade => "package_upgrade"
  | serviceStart => "service_start"
  | serviceStop => "service_stop"
  | serviceRestart => "service_restart"
  | serviceEnable => "service_enable"
  | serviceDisable => "service_disable"
  | fileWrite => "file_write"
  | fileCopy => "file_copy"
  | fileTemplate => "file_template"
  | fileDelete => "file_delete"
  | filePermissions => "file_permissions"
  | directoryCreate => "directory_create"
  | directoryDelete => "directory_delete"
  | userCreate => "user_create"
  | userDelete => "user_delete"
  | userModify => "user_modify"
  | groupCreate => "group_create"
  | groupDelete => "group_delete"
  | groupModify => "group_modify"
  | networkInterface => "network_interface"
  | networkRoute => "network_route"
  | firewallRule => "firewall_rule"
  | scriptExecute => "script_execute"
  | commandRun => "command_run"
  | computeInstanceCreate => "compute_instance_create"
  | computeInstanceDelete => "compute_instance_delete"
  | storageBucketCreate => "storage_bucket_create"
  | storageBucketDelete => "storage_bucket_delete"

instance : Vocabulary Action := ⟨all,text⟩

theorem mem_all (a : Action) : a ∈ all := by cases a <;> decide

end Action

/-- How a dependency orders its two operations, where it is one of the well-known relations. -/
inductive Relation where
  | sequential | requires | notifies | watches | conflicts | dependsOn
  deriving DecidableEq, Repr, Inhabited

namespace Relation

def all : List Relation := [sequential,requires,notifies,watches,conflicts,dependsOn]

/-- The text of a relation. -/
def text : Relation → String
  | sequential => "sequential"
  | requires => "requires"
  | notifies => "notifies"
  | watches => "watches"
  | conflicts => "conflicts"
  | dependsOn => "depends_on"

instance : Vocabulary Relation := ⟨all,text⟩

theorem mem_all (r : Relation) : r ∈ all := by cases r <;> decide

end Relation

/-- The configuration formats that adapters read or write. -/
inductive Format where
  | ansible | salt | terraform | puppet | chef | kubernetes
  deriving DecidableEq, Repr, Inhabited

namespace Format

def all : List Format := [ansible,salt,terraform,puppet,chef,kubernetes]

/-- The text of a format. -/
def text : Format → String
  | ansible => "ansible"
  | salt => "salt"
  | terraform => "terraform"
  | puppet => "puppet"
  | chef => "chef"
  | kubernetes => "kubernetes"

instance : Vocabulary Format := ⟨all,text⟩

theorem mem_all (f : Format) : f ∈ all := by cases f <;> decide

end Format

/-- A word of one of the vocabularies as a piece of data. Formats make two vocabularies, one for
what is read and one for what is written. -/
inductive Tag where
  | action (word : Action)
  | relation (word : Relation)
  | source (word : Format)
  | target (word : Format)
  deriving DecidableEq, Repr, Inhabited

namespace Tag

/-- The text of the word. -/
def text : Tag → String
  | action word => word.text
  | relation word => word.text
  | source word => word.text
  | target word => word.text

/-- The name of the vocabulary. -/
def family : Tag → String
  | action _ => "OperationType"
  | relation _ => "DependencyType"
  | source _ => "SourceFormat"
  | target _ => "TargetFormat"

/-- The name of the word in its vocabulary. -/
def member : Tag → String
  | action word => Vocabulary.member word
  | relation word => Vocabulary.member word
  | source word => Vocabulary.member word
  | target word => Vocabulary.member word

/-- The word's name behind the vocabulary's. -/
def qualifiedName (t : Tag) : String := t.family ++ "." ++ t.member

def all : List Tag :=
  Action.all.map action ++ Relation.all.map relation ++ Format.all.map source ++
    Format.all.map target

def ofQualifiedName? (s : String) : Option Tag := all.find? fun t => t.qualifiedName == s

end Tag

end InfraGraph
