/-! # Help texts

What `-h` prints, and the longer text that `--help` prints.
-/
namespace LaunchEditor.Program

def shortHelp : String :=
  "\n".intercalate [
    "Command-line arguments for the run-builder CLI tool",
    "",
    "Usage: rb [OPTIONS] <IMAGE>",
    "",
    "Arguments:",
    "  <IMAGE>  The image to run. Also selects the catalog entry offered in the editor",
    "",
    "Options:",
    "      --name <NAME>                  Assign a name to the container",
    "  -v, --volume <VOLUME>              Bind mount a volume, as `source:target`",
    "      --entrypoint <ENTRYPOINT>      Overwrite the default entrypoint of the image",
    "  -e, --env <ENV>                    Set an environment variable, as `KEY=value`",
    "  -p, --publish <PUBLISH>            Publish a container port to the host, as `host:container`",
    "  -d, --detach                       Run the container in the background",
    "  -i, --interactive                  Keep STDIN open",
    "  -t, --tty                          Allocate a pseudo-TTY",
    "  -c, --catalog-path <CATALOG_PATH>  Path to the parameter catalog YAML",
    "      --no-color                     Disable coloured output. `NO_COLOR` is honoured as well",
    "      --no-tui                       Skip the interactive editor and only print the command",
    "      --timeout <TIMEOUT>            Give up editing after this many seconds without committing anything",
    "  -h, --help                         Print help (see more with '--help')"]

def longHelp : String :=
  "\n".intercalate [
    "Command-line arguments for the run-builder CLI tool.",
    "",
    "Options given here seed the run and container options before the interactive editor adds its own selections.",
    "",
    "# Examples",
    "",
    "```rust use clap::Parser; use run_builder_cli::cli_args::Args;",
    "",
    "let args = Args::parse_from([\"rb\", \"postgres\"]); assert_eq!(args.image, \"postgres\"); ```",
    "",
    "Usage: rb [OPTIONS] <IMAGE>",
    "",
    "Arguments:",
    "  <IMAGE>",
    "          The image to run. Also selects the catalog entry offered in the editor",
    "",
    "Options:",
    "      --name <NAME>",
    "          Assign a name to the container",
    "",
    "  -v, --volume <VOLUME>",
    "          Bind mount a volume, as `source:target`",
    "",
    "      --entrypoint <ENTRYPOINT>",
    "          Overwrite the default entrypoint of the image",
    "",
    "  -e, --env <ENV>",
    "          Set an environment variable, as `KEY=value`",
    "",
    "  -p, --publish <PUBLISH>",
    "          Publish a container port to the host, as `host:container`",
    "",
    "  -d, --detach",
    "          Run the container in the background",
    "",
    "  -i, --interactive",
    "          Keep STDIN open",
    "",
    "  -t, --tty",
    "          Allocate a pseudo-TTY",
    "",
    "  -c, --catalog-path <CATALOG_PATH>",
    "          Path to the parameter catalog YAML.",
    "          ",
    "          If not provided, defaults to `~/.run-builder/catalog.yml`, falling back to the built-in catalog when that file does not exist.",
    "",
    "      --no-color",
    "          Disable coloured output. `NO_COLOR` is honoured as well",
    "",
    "      --no-tui",
    "          Skip the interactive editor and only print the command",
    "",
    "      --timeout <TIMEOUT>",
    "          Give up editing after this many seconds without committing anything",
    "",
    "  -h, --help",
    "          Print help (see a summary with '-h')"]

end LaunchEditor.Program
