/-!
# Discovery queries

The three queries that list tables and functions. The query for tables
takes the allowed schemas and two lists of patterns, or, in its second
form, a whitelist alone.
-/

namespace DocStore.Catalog

/-- Lists the tables that three filters leave over. -/
def tablesSql : String := "-- $1 allowed schemas, $2 blacklist patterns, $3 exception patterns.
-- Each is a comma-delimited list; an empty string disables that filter.
-- Patterns are LIKE patterns; '*' is accepted as '%'.
select t.table_schema as schema,
       t.table_name as name,
       kc.column_name as pk
from information_schema.tables t
left join information_schema.table_constraints tc
  on tc.table_schema = t.table_schema
 and tc.table_name = t.table_name
 and tc.constraint_type = 'PRIMARY KEY'
left join information_schema.key_column_usage kc
  on kc.constraint_schema = tc.constraint_schema
 and kc.constraint_name = tc.constraint_name
 and kc.ordinal_position = 1
where t.table_type = 'BASE TABLE'
  and t.table_schema not in ('pg_catalog', 'information_schema')
  and (
    (
      ($1 = '' or t.table_schema = any(string_to_array(replace($1, ' ', ''), ',')))
      and ($2 = '' or not (
        t.table_name like any(string_to_array(replace(replace($2, ' ', ''), '*', '%'), ','))
        or (t.table_schema || '.' || t.table_name) like any(string_to_array(replace(replace($2, ' ', ''), '*', '%'), ','))
      ))
    )
    or ($3 <> '' and (
      t.table_name like any(string_to_array(replace(replace($3, ' ', ''), '*', '%'), ','))
      or (t.table_schema || '.' || t.table_name) like any(string_to_array(replace(replace($3, ' ', ''), '*', '%'), ','))
    ))
  )
order by t.table_schema, t.table_name;
"

/-- Lists the tables on a whitelist. -/
def whitelistSql : String := "-- $1 comma-delimited LIKE patterns; only matching tables are returned.
select t.table_schema as schema,
       t.table_name as name,
       kc.column_name as pk
from information_schema.tables t
left join information_schema.table_constraints tc
  on tc.table_schema = t.table_schema
 and tc.table_name = t.table_name
 and tc.constraint_type = 'PRIMARY KEY'
left join information_schema.key_column_usage kc
  on kc.constraint_schema = tc.constraint_schema
 and kc.constraint_name = tc.constraint_name
 and kc.ordinal_position = 1
where t.table_type = 'BASE TABLE'
  and t.table_schema not in ('pg_catalog', 'information_schema')
  and (
    t.table_name like any(string_to_array(replace(replace($1, ' ', ''), '*', '%'), ','))
    or (t.table_schema || '.' || t.table_name) like any(string_to_array(replace(replace($1, ' ', ''), '*', '%'), ','))
  )
order by t.table_schema, t.table_name;
"

def functionsSql : String := "select n.nspname as schema,
       p.proname as name,
       p.pronargs::int as param_count
from pg_proc p
inner join pg_namespace n on n.oid = p.pronamespace
where n.nspname not in ('pg_catalog', 'information_schema')
  and p.prokind = 'f'
order by n.nspname, p.proname;
"

end DocStore.Catalog
