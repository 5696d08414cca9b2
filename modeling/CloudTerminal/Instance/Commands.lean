import CloudTerminal.Command

/-!
The commands about instances. All of them but the listing name one instance, after the word `instance`.
-/

namespace CloudTerminal.Instance

/-- `instance_name`: the argument of a command of the form `verb instance name`. -/
def nameArgument (manual : Manual) (arguments : List String) : Except Error String :=
  match manual.afterWord "instance" arguments with
  | .error e => .error e
  | .ok rest => manual.oneArgument rest

def createManual : Manual where
  name := "create"
  summary := "Create a cloud instance"
  usage := "create instance <name> <type>"
  category := "cloud"

/-- `CreateCmd`: launches an instance of a new name under the next identifier. -/
def create : Command := { createManual with
  run := fun setting world arguments =>
    match (createManual.afterWord "instance" arguments).bind createManual.twoArguments with
    | .error e => (.error e, world)
    | .ok (name, word) =>
      match InstanceType.ofText? word with
      | none => (.error (.unknownInstanceType word), world)
      | some type =>
        if world.store.instances.contains name then
          (.error (.duplicateName (Named.label Instance) name), world)
        else
          let (id, ids) := world.ids.instanceId
          match world.store.instances.add (launch id name type setting.clock) with
          | .error e => (.error e, { world with ids })
          | .ok instances =>
            (.ok (.text s!"Created {type.text} instance '{name}'\n  ID:     {id}\n  Status: running"),
              { world with ids, store.instances := instances }) }

def instancesManual : Manual where
  name := "instances"
  summary := "List cloud instances"
  usage := "instances list [type]"
  category := "cloud"

/-- `InstancesCmd`: the answer of the listing, of all types or of one. -/
def listing (store : Store) (type? : Option InstanceType) : Reply :=
  match store.instances.filter fun i => type?.all (i.type == ·) with
  | [] =>
    .text <|
      match type? with
      | some type => s!"No {type.text} instances found."
      | none => "No instances found. Use 'create instance <name> <type>' to create one."
  | found =>
    .table ["ID", "NAME", "TYPE", "STATUS"]
      (found.map fun i => [i.id, i.name, i.type.text, i.power.text])

def instances : Command := .reading instancesManual fun _ store arguments =>
  match (instancesManual.afterWord "list" arguments).bind instancesManual.optionalArgument with
  | .error e => .error e
  | .ok none => .ok (listing store none)
  | .ok (some word) =>
    match InstanceType.ofText? word with
    | none => .error (.unknownInstanceType word)
    | some type => .ok (listing store type)

/-- Changes one instance; the answer is made from its name and its identifier. -/
def changing (manual : Manual) (change : Instance → Except Error Instance)
    (answer : String → String → String) : Command := { manual with
  run := fun _ world arguments =>
    match nameArgument manual arguments with
    | .error e => (.error e, world)
    | .ok name =>
      match world.store.instances.update name fun i => (change i).map (i.id, ·) with
      | .error e => (.error e, world)
      | .ok (id, instances) =>
        (.ok (.text (answer name id)), { world with store.instances := instances }) }

def startManual : Manual where
  name := "start"
  summary := "Start a stopped instance"
  usage := "start instance <name>"
  category := "cloud"

def startCommand : Command := changing startManual start fun name id =>
  s!"Starting instance '{name}' ({id})... done\n  Status: running"

def stopManual : Manual where
  name := "stop"
  summary := "Stop a running instance"
  usage := "stop instance <name>"
  category := "cloud"

def stopCommand : Command := changing stopManual stop fun name id =>
  s!"Stopping instance '{name}' ({id})... done\n  Status: stopped"

def describeManual : Manual where
  name := "describe"
  summary := "Show instance details"
  usage := "describe instance <name>"
  category := "cloud"

/-- `DescribeCmd`: all that is known about an instance. -/
def description (i : Instance) : String :=
  "\n".intercalate [s!"Instance: {i.name}", s!"  ID:      {i.id}", s!"  Name:    {i.name}",
    s!"  Type:    {i.type.text}", s!"  Status:  {i.power.text}", s!"  Created: {i.created}"]

def describe : Command := .reading describeManual fun _ store arguments =>
  match nameArgument describeManual arguments with
  | .error e => .error e
  | .ok name => (store.instances.find name).map fun i => .text (description i)

def deleteManual : Manual where
  name := "delete"
  summary := "Delete an instance"
  usage := "delete instance <name>"
  category := "cloud"

/-- `DeleteCmd`: deletes an instance. -/
def delete : Command := { deleteManual with
  run := fun _ world arguments =>
    match nameArgument deleteManual arguments with
    | .error e => (.error e, world)
    | .ok name =>
      match world.store.instances.remove name with
      | .error e => (.error e, world)
      | .ok (i, instances) =>
        (.ok (.text s!"Deleted instance '{name}' ({i.id})"),
          { world with store.instances := instances }) }

/-- `register_cloud_commands`: the commands about instances. -/
def commands : List Command := [create, instances, startCommand, stopCommand, describe, delete]

end CloudTerminal.Instance
