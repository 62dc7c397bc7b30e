import Salvage.Error
import Salvage.Tables.Traversal

/-!
# Statements

The statements by which a database keeps the tables of a workspace, each in the schema of its
organization, and identifiers inside statements. An identifier is written between double quotes with
its own double quotes doubled, so it always ends where it should.
-/

namespace Salvage.Statement

/-- The characters of an identifier with its quotes doubled. -/
def doubleQuotes (cs : List Char) : List Char :=
  cs.flatMap fun c => if c = '"' then ['"', '"'] else [c]

/-- An identifier as it stands in a statement. -/
def quoteIdentifier (name : String) : String :=
  String.ofList ('"' :: doubleQuotes name.toList ++ ['"'])

/-- Lines of a statement. -/
def lines (ls : List String) : String :=
  "\n".intercalate ls

/-- The schema of an organization. -/
def schema (org : Int) : String :=
  s!"\"{org}\""

/-- The columns of a package. -/
def packageColumns : String :=
  "id::bigint AS id, name, type, state, node_id, parent_id::bigint AS parent_id, " ++
    "dataset_id::bigint AS dataset_id, owner_id::bigint AS owner_id, size::bigint AS size, " ++
    "import_id::uuid AS import_id, attributes::jsonb AS attributes, " ++
    "created_at::timestamp AS created_at, updated_at::timestamp AS updated_at"

/-- Finds a dataset by its node id. -/
def datasetByNodeId (org : Int) : String :=
  s!"SELECT id::bigint AS id, name, node_id FROM {schema org}.datasets WHERE node_id = $1"

/-- Finds a package of a dataset by its node id. -/
def packageByNodeId (org : Int) : String :=
  s!"SELECT {packageColumns} FROM {schema org}.packages WHERE dataset_id = $1 AND node_id = $2"

/-- Moves a package from one state to another. -/
def movePackage (org : Int) : String :=
  lines [
    s!"UPDATE {schema org}.packages SET state = $1, updated_at = CURRENT_TIMESTAMP",
    "           WHERE node_id = $2 AND dataset_id = $3 AND state = $4",
    s!"           RETURNING {packageColumns}"]

/-- The condition on the packages of the first level below a package. -/
def firstLevel : Traversal → String
  | .bounded => "AND state = $3"
  | .entireSubtree => ""

/-- The condition on the packages of deeper levels. -/
def deeperLevel : Traversal → String
  | .bounded => "WHERE child.state = $3"
  | .entireSubtree => ""

/-- Moves the descendants of a package, parents first. -/
def moveDescendants (org : Int) (way : Traversal) : String :=
  lines [
    "WITH RECURSIVE nodes(id, depth) AS (",
    s!"               SELECT id, 1 FROM {schema org}.packages",
    s!"                   WHERE parent_id = $1 AND dataset_id = $2 {firstLevel way}",
    "               UNION ALL",
    s!"               SELECT child.id, nodes.depth + 1 FROM {schema org}.packages child",
    "                   JOIN nodes ON nodes.id = child.parent_id",
    s!"                   {deeperLevel way}",
    "           ),",
    "           updated AS (",
    s!"               UPDATE {schema org}.packages SET state = $4, updated_at = CURRENT_TIMESTAMP",
    "               WHERE state = $3 AND id IN (SELECT id FROM nodes)",
    s!"               RETURNING {packageColumns}",
    "           )",
    "           SELECT updated.* FROM updated",
    "               JOIN nodes ON nodes.id = updated.id",
    "               ORDER BY nodes.depth, updated.id"]

/-- Moves a collection and the collections above it. -/
def moveAncestors (org : Int) : String :=
  lines [
    "WITH RECURSIVE ancestors(id, parent_id) AS (",
    s!"               SELECT id, parent_id FROM {schema org}.packages",
    "                   WHERE type = $1 AND id = $2 AND state = $3",
    "               UNION ALL",
    s!"               SELECT parents.id, parents.parent_id FROM {schema org}.packages parents",
    "                   JOIN ancestors ON ancestors.parent_id = parents.id",
    "                   WHERE parents.type = $1 AND parents.state = $3",
    "           )",
    s!"           UPDATE {schema org}.packages SET state = $4, updated_at = CURRENT_TIMESTAMP",
    "           WHERE type = $1 AND state = $3 AND id IN (SELECT id FROM ancestors)",
    s!"           RETURNING {packageColumns}"]

/-- Renames a package. -/
def renamePackage (org : Int) : String :=
  s!"UPDATE {schema org}.packages SET name = $1, updated_at = CURRENT_TIMESTAMP WHERE id = $2"

/-- Sums the source files of packages. -/
def fileSizes (org : Int) : String :=
  lines [
    "SELECT package_id::bigint AS package_id, COALESCE(SUM(size), 0)::bigint AS size",
    s!"           FROM {schema org}.files WHERE package_id = ANY($1) GROUP BY package_id"]

/-- Adds to the total of a package. -/
def addToPackage (org : Int) : String :=
  lines [
    s!"INSERT INTO {schema org}.package_storage AS package_storage (package_id, size) " ++
      "VALUES ($1, $2)",
    "           ON CONFLICT (package_id) DO UPDATE",
    "           SET size = COALESCE(package_storage.size, 0) + EXCLUDED.size"]

/-- Adds to the totals of a package and of every package above it. -/
def addToAncestors (org : Int) : String :=
  lines [
    "WITH RECURSIVE ancestors(id, parent_id) AS (",
    s!"               SELECT packages.id, packages.parent_id FROM {schema org}.packages packages",
    "                   WHERE packages.id = $1",
    "               UNION",
    s!"               SELECT parents.id, parents.parent_id FROM {schema org}.packages parents",
    "                   JOIN ancestors ON ancestors.parent_id = parents.id",
    "           )",
    s!"           INSERT INTO {schema org}.package_storage AS package_storage (package_id, size)",
    "           SELECT id, $2 FROM ancestors",
    "           ON CONFLICT (package_id)",
    "           DO UPDATE SET size = COALESCE(package_storage.size, 0) + EXCLUDED.size"]

/-- Adds to the total of a dataset. -/
def addToDataset (org : Int) : String :=
  lines [
    s!"INSERT INTO {schema org}.dataset_storage AS dataset_storage (dataset_id, size) " ++
      "VALUES ($1, $2)",
    "           ON CONFLICT (dataset_id) DO UPDATE",
    "           SET size = COALESCE(dataset_storage.size, 0) + EXCLUDED.size"]

/-- Adds to the total of an organization; these totals have a schema of their own. -/
def addToOrganization : String :=
  lines [
    "INSERT INTO pennsieve.organization_storage",
    "    AS organization_storage (organization_id, size) VALUES ($1, $2)",
    "    ON CONFLICT (organization_id) DO UPDATE",
    "    SET size = COALESCE(organization_storage.size, 0) + EXCLUDED.size"]

/-- A command on the savepoint with a name. -/
def onSavepoint (command name : String) : String :=
  command ++ " " ++ quoteIdentifier name

/-- Makes a savepoint. -/
def savepoint (name : String) : String :=
  onSavepoint "SAVEPOINT" name

/-- Goes back to a savepoint. -/
def rollbackTo (name : String) : String :=
  onSavepoint "ROLLBACK TO SAVEPOINT" name

/-- Forgets a savepoint. -/
def release (name : String) : String :=
  onSavepoint "RELEASE SAVEPOINT" name

/-- The code of a database for a value that must be unique and is not. -/
def uniqueViolation : String := "23505"

/-- The indices that keep the names of siblings apart. -/
def nameIndices : List String :=
  ["packages_name_dataset_id__parent_id_null_idx",
    "packages_name_dataset_id_parent_id__parent_id_not_null_idx"]

/-- The database refused a statement because a sibling has the name. -/
def isNameViolation : DatabaseError → Bool
  | .rejected (some code) (some constraint) =>
    code == uniqueViolation && nameIndices.contains constraint
  | _ => false

end Salvage.Statement
