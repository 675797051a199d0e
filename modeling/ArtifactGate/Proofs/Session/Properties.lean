import ArtifactGate.Proofs.Session.Targets
import ArtifactGate.Proofs.SortedMap

/-!
What is attached to a file that an upload stores. The settings attach variables of the environment; with `-p` the
file's times and permissions replace what has the same names; and the user's name replaces what would be under its
name.
-/
namespace ArtifactGate

/-- A node to which nothing is attached gets just these properties. -/
theorem Node.properties_withProperties {node : Node} (fresh : node.properties = .empty) (properties : Properties) :
    (node.withProperties properties).properties = properties := by
  rw [withProperties, fresh]
  exact properties.ofList_entries

theorem Chosen.fresh {target node : Node} {name : String} (chosen : Chosen target name node)
    (bare : target.properties = .empty) : node.properties = .empty := by
  by_cases takes : target.TakesChildren
  · exact (chosen.below takes).fresh
  · rw [chosen.here takes, bare]

/-- The value of a variable, unless it is empty. -/
def valueOf? (environment : SortedMap String String) (name : String) : Option String :=
  (environment.get? name).filter fun value => !value.isEmpty

/-- What the settings attach under a property: the value of the variable that they map to it. -/
def Settings.attached? (settings : Settings) (environment : SortedMap String String) (property : String) :
    Option String :=
  (settings.environmentProperties.entries.find? fun entry => entry.2 == property).bind fun entry =>
    valueOf? environment entry.1

namespace Gateway

variable {settings : Settings} {environment : SortedMap String String}

/-- The environment attaches a variable under its property, if it has a value. -/
theorem get?_attach (properties : Properties) (name property key : String) :
    SortedMap.get? (match environment.get? name with
      | some value => if value.isEmpty then properties else properties.insert property value
      | none => properties) key =
      if key = property then (valueOf? environment name).or (properties.get? key) else properties.get? key := by
  rw [valueOf?]
  cases environment.get? name with
  | none => rw [Option.filter_none, Option.none_or, ite_self]
  | some value =>
      cases empty : value.isEmpty with
      | true => simp only [empty, Option.filter_some, Bool.not_true, Bool.false_eq_true, if_true, if_false,
          Option.none_or, ite_self]
      | false => simp only [empty, Option.filter_some, Bool.not_false, Bool.false_eq_true, if_true, if_false,
          Option.some_or, SortedMap.get?_insert]

theorem get?_attachAll {entries : List (String × String)} (distinct : (entries.map Prod.snd).Nodup)
    (properties : Properties) (key : String) :
    (entries.foldl (fun properties (name, property) =>
      match environment.get? name with
      | some value => if value.isEmpty then properties else properties.insert property value
      | none => properties) properties).get? key =
      ((entries.find? fun entry => entry.2 == key).bind fun entry => valueOf? environment entry.1).or
        (properties.get? key) := by
  induction entries generalizing properties with
  | nil => rfl
  | cons entry rest ih =>
      obtain ⟨name, property⟩ := entry
      obtain ⟨absent, distinct⟩ := List.nodup_cons.1 distinct
      rw [List.foldl_cons, ih distinct, get?_attach, List.find?_cons]
      by_cases same : key = property
      · have none : rest.find? (fun entry => entry.2 == key) = none := by
          refine List.find?_eq_none.2 fun entry member equal => absent ?_
          exact List.mem_map.2 ⟨entry, member, (eq_of_beq equal).trans same⟩
        rw [none, if_pos same, same, beq_self_eq_true]
        rfl
      · rw [if_neg same, beq_false_of_ne (Ne.symm same)]

theorem get?_environmentProperties (distinct : (settings.environmentProperties.entries.map Prod.snd).Nodup)
    (key : String) :
    (environmentProperties settings environment).get? key = settings.attached? environment key :=
  (get?_attachAll distinct .empty key).trans Option.or_none

end Gateway

/-- What `-p` keeps of a file. -/
def Wire.Header.kept (header : Wire.Header) (times : Wire.Timestamps) : List (String × String) :=
  [(modifiedProperty, toString times.modified), (accessedProperty, toString times.accessed),
    (permissionsProperty, header.permissions)]

/-- What an upload keeps of a file: its times and permissions, if times were sent and are to be kept. -/
def Command.kept (command : Command) (times : Option Wire.Timestamps) (header : Wire.Header) :
    List (String × String) :=
  if command.preserve then times.elim [] header.kept else []

theorem Receiver.get?_fileProperties (transfer : Transfer) (header : Wire.Header) (times : Option Wire.Timestamps)
    (key : String) :
    (fileProperties transfer header times).get? key =
      ((transfer.command.kept times header).lookup key).or (transfer.properties.get? key) := by
  rw [Command.kept]
  cases preserve : transfer.command.preserve with
  | false => simp only [fileProperties, preserve, Bool.false_eq_true, if_false, List.lookup_nil, Option.none_or]
  | true =>
      cases times with
      | none => simp only [fileProperties, preserve, if_true, Option.elim, List.lookup_nil, Option.none_or]
      | some times =>
          have distinct : ((header.kept times).map Prod.fst).Nodup := by
            change [modifiedProperty, accessedProperty, permissionsProperty].Nodup
            decide
          simp only [fileProperties, preserve, if_true, Option.elim]
          exact SortedMap.get?_insertAll distinct transfer.properties key

end ArtifactGate
