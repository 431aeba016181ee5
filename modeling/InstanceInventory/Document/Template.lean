import InstanceInventory.Literal.Printer

/-! # The configuration document

* `Options`: what of a document is not a record.
* `preamble`, `mapClose`, `resources`: the fixed parts before and after the records.
* `render`: the document that holds given record blocks.
-/

namespace InstanceInventory.Document
set_option autoImplicit false

/-- What a document says besides its records: the region and version of the provider, and whether
instances are protected from being destroyed. -/
structure Options where
  region : String
  providerVersion : String := "~> 5.0"
  preventDestroy : Bool := true
  deriving DecidableEq, Repr

/-! ## Fixed parts -/

/-- The lines up to the opening of the map of instances. -/
def preamble (o : Options) : List String :=
  [
    "# Terraform configuration for EC2 instances",
    "terraform \x7b",
    "  required_providers \x7b",
    "    aws = \x7b",
    "      source  = \"hashicorp/aws\"",
    "      version = " ++ Literal.quoteString o.providerVersion,
    "    \x7d",
    "  \x7d",
    "\x7d",
    "",
    "provider \"aws\" \x7b",
    "  region = " ++ Literal.quoteString o.region,
    "\x7d",
    "",
    "# Define the instances we want to manage",
    "locals \x7b",
    "  instances = \x7b"
  ]

def mapClose : List String :=
  ["  \x7d", "\x7d"]

/-- The lines that make a resource of each instance and show the outcome. -/
def resources (o : Options) : List String :=
  [
    "",
    "# Create all instances using for_each",
    "resource \"aws_instance\" \"managed_instances\" \x7b",
    "  for_each = local.instances",
    "",
    "  ami                    = each.value.ami",
    "  instance_type          = each.value.instance_type",
    "  subnet_id              = each.value.subnet_id",
    "  vpc_security_group_ids = each.value.security_group_ids",
    "  iam_instance_profile   = each.value.iam_instance_profile",
    "  key_name               = each.value.key_name",
    "  private_ip             = each.value.private_ip",
    "  monitoring             = each.value.monitoring",
    "",
    "  # Root block device configuration",
    "  root_block_device \x7b",
    "    volume_size = each.value.root_volume_size",
    "    volume_type = each.value.root_volume_type",
    "    encrypted   = each.value.root_volume_encrypted",
    "    tags = merge(",
    "      lookup(each.value, \"root_volume_tags\", \x7b\x7d),",
    "      \x7b",
    "        Name = \"$\x7beach.value.tags.Name\x7d-root\"",
    "      \x7d",
    "    )",
    "  \x7d",
    "",
    "  # Dynamic EBS volumes",
    "  dynamic \"ebs_block_device\" \x7b",
    "    for_each = lookup(each.value, \"ebs_volumes\", [])",
    "    content \x7b",
    "      device_name           = ebs_block_device.value.device_name",
    "      volume_size           = ebs_block_device.value.volume_size",
    "      volume_type           = ebs_block_device.value.volume_type",
    "      encrypted             = ebs_block_device.value.encrypted",
    "      delete_on_termination = ebs_block_device.value.delete_on_termination",
    "      tags = \x7b",
    "        Name = \"$\x7beach.value.tags.Name\x7d-$\x7bebs_block_device.value.name\x7d\"",
    "      \x7d",
    "    \x7d",
    "  \x7d",
    "",
    "  # User data script (if specified)",
    "  user_data = each.value.user_data_path != null ? file(each.value.user_data_path) : null",
    "",
    "  metadata_options \x7b",
    "    http_endpoint               = each.value.http_endpoint",
    "    http_tokens                 = each.value.http_tokens",
    "    http_put_response_hop_limit = each.value.http_hop_limit",
    "    instance_metadata_tags      = each.value.metadata_tags",
    "  \x7d",
    "",
    "  disable_api_termination = each.value.termination_protection",
    "  disable_api_stop        = each.value.stop_protection",
    "",
    "  tags = each.value.tags",
    "",
    "  lifecycle \x7b",
    "    prevent_destroy = " ++ (if o.preventDestroy then "true" else "false"),
    "    ignore_changes = [",
    "      ami,",
    "      user_data,",
    "    ]",
    "  \x7d",
    "\x7d",
    "",
    "# Outputs",
    "output \"managed_instances\" \x7b",
    "  description = \"Details of all managed instances\"",
    "  value = \x7b",
    "    for name, instance in aws_instance.managed_instances : name => \x7b",
    "      id         = instance.id",
    "      private_ip = instance.private_ip",
    "      public_ip  = instance.public_ip",
    "      state      = instance.instance_state",
    "    \x7d",
    "  \x7d",
    "\x7d",
    "",
    "output \"instance_summary\" \x7b",
    "  description = \"Summary table of managed instances\"",
    "  value = \x7b",
    "    for name, config in local.instances : name => \x7b",
    "      instance_type = config.instance_type",
    "      subnet_id     = config.subnet_id",
    "      name_tag      = config.tags.Name",
    "    \x7d",
    "  \x7d",
    "\x7d"
  ]

/-! ## The document -/

/-- Lines, each closed by a newline. -/
def closeLines (ls : List String) : String :=
  String.join (ls.map fun l => l ++ "\n")

/-- The document that holds record blocks, in order. It depends on the blocks and the options
only. -/
def render (o : Options) (blocks : List String) : String :=
  closeLines (preamble o) ++ closeLines blocks ++ closeLines mapClose ++ closeLines (resources o)

end InstanceInventory.Document
