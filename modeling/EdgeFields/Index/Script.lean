import EdgeFields.Operation

/-!
# Update scripts

The scripts that the index runs for the operations, one for each action.
-/

namespace EdgeFields.Script

/-- Adds the value to the field unless it holds one of the same number. -/
def upsert : String := "\n".intercalate [
  "if (!ctx._source.containsKey(params.field) || ctx._source[params.field] == null) \x7b",
  "    ctx._source[params.field] = [params.value];",
  "\x7d else \x7b",
  "    boolean exists = false;",
  "    for (item in ctx._source[params.field]) \x7b",
  "        if (item.entity_id == params.value.entity_id) \x7b exists = true; break; \x7d",
  "    \x7d",
  "    if (exists) \x7b ctx.op = 'noop'; \x7d else \x7b ctx._source[params.field].add(params.value); \x7d",
  "\x7d"]

/-- Takes the values of the same number from the field, and the field with the last of them. -/
def remove : String := "\n".intercalate [
  "if (!ctx._source.containsKey(params.field) || ctx._source[params.field] == null) \x7b",
  "    ctx.op = 'noop';",
  "    return;",
  "\x7d",
  "boolean removed = ctx._source[params.field].removeIf(item -> item.entity_id == params.value.entity_id);",
  "if (ctx._source[params.field].isEmpty()) \x7b",
  "    ctx._source.remove(params.field);",
  "\x7d else if (!removed) \x7b",
  "    ctx.op = 'noop';",
  "\x7d"]

/-- Replaces the field by the values, and drops it when there are none. -/
def replace : String := "\n".intercalate [
  "if (params.values.isEmpty()) \x7b",
  "    if (ctx._source.containsKey(params.field)) \x7b ctx._source.remove(params.field); \x7d " ++
    "else \x7b ctx.op = 'noop'; \x7d",
  "\x7d else \x7b",
  "    ctx._source[params.field] = params.values;",
  "\x7d"]

/-- The script of an action. -/
def source : Action → String
  | .upsert => upsert
  | .remove => remove
  | .replace => replace

/-- The action that a script carries out. -/
def action? (s : String) : Option Action :=
  [Action.upsert, Action.remove, Action.replace].find? fun a => source a == s

end EdgeFields.Script
